import TraceGuard.Executor
import TraceGuard.Gateway
import TraceGuard.Policy

/-! The types of the embedded boundary, and the parties behind it. -/
namespace TraceGuard

structure EnforcementConfig where
  llmSupervisor : Bool := false
  postRunReevaluation : Bool := false

/-- A container target names its profile. -/
structure ExecutionPlan where
  effectiveCall : ToolCall
  target : ExecutionTarget
  sandboxProfile : Option String
  declaredInputPaths : List String
  profiled : target=.container → sandboxProfile.getD ""≠""

/-- Which handlers an exception meets: that of the tools, that of reviews, or none. -/
inductive ErrorKind where
  | expected
  | other
  | exit
  deriving DecidableEq

/-- An exception of code behind the boundary. -/
structure Raised where
  name : String
  text : String
  kind : ErrorKind

inductive SandboxError where
  | unavailable
  | raised (error : Raised)

/-- A supervisor's output, and what its token counts come to. -/
structure Verdict where
  output : SupervisorOutput
  tokens : Except PyError Int := .ok 0

inductive Exchange where
  | consulted (question : Question) (answer : Except Raised Verdict)
  | ledger (call : ExecutionLedger.Call) (answer : Except LedgerError ExecutionLedger.Reply)
  | handled (call : ToolCall) (answer : Except Raised Observation)
  | contained (plan : ExecutionPlan) (answer : Except SandboxError SandboxEvidence)
  | reviewed (userTask : String) (call : ToolCall) (evidence : SandboxEvidence)
      (answer : Except Raised (Option PostRunAssessment))
  | rejected (evidence : SandboxEvidence) (answer : Except Raised Unit)

/-- The parties behind the boundary, each of which may answer by everything that happened before, and the JSON of
evidence and observations. -/
structure Surroundings where
  supervisor : List Exchange → Question → Except Raised Verdict
  reevaluate : List Exchange → String → ToolCall → SandboxEvidence → Except Raised (Option PostRunAssessment)
  tools : List Exchange → ToolCall → Except Raised Observation
  sandbox : List Exchange → ExecutionPlan → Except SandboxError SandboxEvidence
  rejectArtifacts : Option (List Exchange → SandboxEvidence → Except Raised Unit)
  scan : List Exchange → Scan
  dumpEvidence : SandboxEvidence → String
  dump : Observation → String
  parse : String → Option Observation

inductive BoundaryError where
  | policy (error : PyError)
  | ledger (error : LedgerError)
  | foreign (error : Raised)

inductive EpisodeOutcome where
  | block
  | escalate
  | simulated
  | blockResult
  | replayed
  | executedContainer
  | executed
  | executionUnknown
  | toolError
  deriving DecidableEq

def EpisodeOutcome.released (outcome : EpisodeOutcome) : Bool :=
  outcome∈[.executed, .executedContainer, .replayed, .simulated]

def PostRunDisposition.stored : PostRunDisposition → Disposition
  | .acceptResult => .acceptedForAgent
  | .blockResult => .withheld
  | .escalate | .rewriteAndRetry => .reviewRequired

inductive ExecutionStatus where
  | notDispatched
  | dispatched
  | unknown
  | replayed
  deriving DecidableEq

structure TraceEvent where
  taskId : String
  stepId : Nat
  proposedCall : ToolCall
  effectiveCall : ToolCall
  safeguardOutputs : List Verdict
  executionPlan : Option ExecutionPlan
  resultObservationId : Option String
  resultDigest : Option String
  tokenUsage : Int
  policyVersion : String
  episodeOutcome : EpisodeOutcome
  executionStatus : ExecutionStatus
  resultReleased : Bool

structure RuntimeResult where
  trace : TraceEvent
  observation : Option Observation
  postRun : Option PostRunAssessment := none

def PolicyConfig.json (config : PolicyConfig) : Json :=
  let texts (xs : List String) : Json := .arr (xs.map .str)
  .obj [("version", .str config.version), ("allowed_read_roots", texts config.allowedReadRoots),
    ("allowed_write_roots", texts config.allowedWriteRoots),
    ("blocked_path_segments", texts config.blockedPathSegments),
    ("blocked_command_tokens", texts config.blockedCommandTokens),
    ("blocked_shell_operators", texts config.blockedShellOperators),
    ("sandbox_command_tokens", texts config.sandboxCommandTokens),
    ("benign_command_tokens", texts config.benignCommandTokens),
    ("math_goal_keywords", texts config.mathGoalKeywords),
    ("write_goal_keywords", texts config.writeGoalKeywords),
    ("read_goal_keywords", texts config.readGoalKeywords),
    ("max_command_length", .int config.maxCommandLength),
    ("max_requested_resources", .int config.maxRequestedResources)]

/-- What a boundary changes: its own record of the task, and the ledger's file. -/
structure BoundaryState where
  executedCalls : String → List ToolCall
  escalatedTasks : List String
  database : Database

namespace BoundaryState

/-- A new boundary's, on what the ledger's file holds. -/
def new (database : Database) : BoundaryState := ⟨fun _ => [], [], database⟩

def append (s : BoundaryState) (taskId : String) (call : ToolCall) : BoundaryState :=
  { s with executedCalls := fun id => if id=taskId then s.executedCalls id++[call] else s.executedCalls id }

def escalate (s : BoundaryState) (taskId : String) : BoundaryState :=
  { s with escalatedTasks := taskId :: s.escalatedTasks }

end BoundaryState

end TraceGuard
