import TraceGuard.Supervision

/-! What a supervisor and its provider say to each other. A provider answers as it likes; what it was asked
and what it said is recorded. -/

/-- `a < b`. -/
def PyNumber.lt (a b : PyNumber) : Bool := a.le b && !b.le a

/-- `f"{x:.3f}"`. -/
def Double.fixed : Double → String
  | .finite neg units _ =>
    let n := Rounding.halfEven (units*1000) (2^Double.places)
    let digits := toString (n%1000)
    (if neg then "-" else "")++toString (n/1000)++"."++
      String.ofList (List.replicate (3-digits.length) '0')++digits
  | .infinity neg => if neg then "-inf" else "inf"
  | .nan => "nan"

namespace TraceGuard

inductive SupervisorGoalRelevance where
  | relevant
  | unrelated
  | uncertain
  deriving DecidableEq, Repr

inductive SupervisorNecessity where
  | necessary
  | unnecessary
  | uncertain
  deriving DecidableEq, Repr

def SupervisorGoalRelevance.runtime : SupervisorGoalRelevance → GoalRelevance
  | relevant => .strong
  | unrelated => .irrelevant
  | uncertain => .uncertain

def SupervisorNecessity.runtime : SupervisorNecessity → GoalNecessity
  | necessary => .necessary
  | unnecessary => .unnecessary
  | uncertain => .uncertain

/-- A double from 0 to 1. -/
structure Confidence where
  value : Double
  nonnegative : PyNumber.zero.le (.float value) = true
  atMostOne : PyNumber.le (.float value) (.int 1) = true

def Confidence.of (x : Double) : Except PyError Confidence :=
  if h : PyNumber.zero.le (.float x) = true ∧ PyNumber.le (.float x) (.int 1) = true then
    .ok ⟨x, h.1, h.2⟩
  else .error (.value "Input should be from 0 to 1")

def Confidence.below (confidence : Confidence) (threshold : Double) : Bool :=
  PyNumber.lt (.float confidence.value) (.float threshold)

structure ProviderRequest extends SupervisorRequest where
  trustedPolicy : Dict Json
  previousCalls : List ToolCall
  argumentProvenance : Dict (List String)
  confidenceThreshold : Confidence

/-- Of the metadata only the provider's name. -/
structure ProviderResponse extends SupervisorResponse where
  goalRelevance : SupervisorGoalRelevance
  necessity : SupervisorNecessity
  riskLevel : RiskLevel
  confidence : Confidence
  reason : String
  metadata : Option String := none

structure SupervisorEvaluationLog where
  userGoal : String
  proposedCall : ToolCall
  deterministicEnabled : Bool
  deterministicDecision : Decision
  providerCalled : Bool
  providerResponse : Option ProviderResponse
  finalDecision : SupervisorOutput
  error : Option String := none

inductive PostRunDisposition where
  | acceptResult
  | rewriteAndRetry
  | blockResult
  | escalate
  deriving DecidableEq, Repr

structure SandboxEvidence where
  exitCode : Option Int := none
  stdout : String := ""
  stderr : String := ""
  filesChanged : List String := []
  blockedOperations : List String := []
  peakMemoryBytes : Option Nat := none
  timedOut : Bool := false

structure PostRunAssessment where
  risk : RiskLevel
  evidence : List String
  disposition : PostRunDisposition
  reason : String

structure PostRunSupervisorRequest where
  userGoal : String
  executedCall : ToolCall
  sandboxEvidence : SandboxEvidence

structure PostRunSupervisorResponse where
  disposition : PostRunDisposition
  riskLevel : RiskLevel
  confidence : Confidence
  evidence : List String
  reason : String

/-- What a provider was asked and what it answered; an exception counts with its text. -/
inductive Consultation where
  | evaluated (request : ProviderRequest) (answer : Except String ProviderResponse)
  | postRun (request : PostRunSupervisorRequest) (answer : Except String PostRunSupervisorResponse)

/-- A provider may answer by everything that was asked before. -/
structure SupervisorProvider where
  evaluate : List Consultation → ProviderRequest → Except String ProviderResponse
  evaluatePostRun : List Consultation → PostRunSupervisorRequest →
    Except String PostRunSupervisorResponse

end TraceGuard
