import TraceGuard.Dialogue
import TraceGuard.SupervisorContracts

/-! The supervisor that asks a model: a deterministic guard, the provider's answer, and what becomes of it. -/
namespace TraceGuard
open Dialogue

/-- Where the rendered elements of the arguments occur. -/
def inferProvenance (platform : Platform) (goal : String) (call : ToolCall)
    (observations : List Observation) : Dict (List String) :=
  let rendered : Json → Option String
    | .str text => if text="" then none else some text
    | .int n => some (platform.text (.int n))
    | .float x => some (platform.text (.float x))
    | _ => none
  let sources (text : String) := (if occursIn text goal then ["user_goal"] else [])++
    (observations.filter fun obs => occursIn text obs.content).map Observation.observationId
  let items (field : String) : Json → List (String × Json)
    | .arr values => values.zipIdx.map fun p => (field++"."++toString p.2, p.1)
    | value => [(field, value)]
  (call.arguments.items.flatMap fun m => items m.1 m.2).foldl (fun found item =>
    match rendered item.2 with
    | some text => found.set item.1 (sources text)
    | none => found) .empty

/-- The registered effects of the available tools. -/
def toolEffects (tools : Schemas) : Json :=
  .obj [("version", .str EffectRegistry.version),
    ("read", .arr ((EffectRegistry.read.filter (·∈tools.keys)).map .str)),
    ("mutations", .obj ((EffectRegistry.mutations.filter (·.1∈tools.keys)).map fun row =>
      (row.1, .arr (row.2.map .str)))),
    ("argument_dependent",
      .arr ((EffectRegistry.argumentDependent.filter (·∈tools.keys)).map .str))]

structure QwenSupervisor where
  availableTools : Schemas := .empty
  confidenceThreshold : Double
  enableRewrite : Bool := true
  deterministicEnabled : Bool := true
  postRunProviderEnabled : Bool := true
  trustedPolicy : Dict Json
  taskAuthority : TaskAuthority := {}
  previousCalls : List ToolCall := []
  stepAlreadyRewritten : Bool := false

namespace QwenSupervisor

/-- `_output`. -/
def verdict (decision : Decision) (risk : RiskLevel) (relevance : GoalRelevance)
    (necessity : GoalNecessity) (reason : String) (matchedRules : List String)
    (h : decision≠.rewrite := by first | exact Decision.allow_ne | exact Decision.block_ne | exact Decision.escalate_ne) :
    SupervisorOutput where
  decision := decision
  risk := risk
  policyViolation := decision=.block
  goalRelevance := relevance
  goalNecessity := necessity
  reason := reason
  matchedRules := matchedRules
  rewrites := SupervisorOutput.unrewritten decision h
  profiled := SupervisorOutput.unprofiled

section
variable (self : QwenSupervisor) (platform : Platform) (crypto : Crypto)

/-- `set_context`; a policy that is not given stays. -/
def setContext (previousCalls : List ToolCall) (taskAuthority : TaskAuthority)
    (trustedPolicy : Option (Dict Json) := none) (stepAlreadyRewritten : Bool := false) :
    QwenSupervisor :=
  { self with
    previousCalls := previousCalls
    taskAuthority := taskAuthority
    trustedPolicy := trustedPolicy.getD self.trustedPolicy
    stepAlreadyRewritten := stepAlreadyRewritten }

def floor : SupervisorOutput :=
  verdict .allow .low .uncertain .uncertain
    "Explicit authority checks passed; semantic relevance remains unverified." ["deterministic-floor"]

/-- `_deterministic_guard`. -/
def deterministicGuard (userTask : String) (call : ToolCall) (observations : List Observation) :
    Except PyError SupervisorOutput :=
  if self.taskAuthority.enforcementMode=.strict then
    match (do
      let compiled ← CompiledAuthority.compile crypto self.taskAuthority self.availableTools
      compiled.evaluate platform crypto userTask call observations self.previousCalls) with
    | .error (.value _) =>
      .ok (output .escalate "invalid-strict-grant" "Strict grant compilation failed.")
    | result => result
  else do
    match ← checkAuthority platform userTask call observations self.taskAuthority self.previousCalls with
    | some denied => return denied.toSupervisorOutput
    | none => return floor

def guarded : Bool := self.deterministicEnabled || self.taskAuthority.enforcementMode=.strict

def llmOnly : SupervisorOutput :=
  verdict .allow .low .weak .helpful
    "Deterministic guardrails disabled for LLM-only supervisor evaluation." ["llm-only-mode"]

/-- What is decided without the provider. -/
def deterministic (userTask : String) (call : ToolCall) (observations : List Observation) :
    Except PyError SupervisorOutput := do
  match ← duplicateMutation call self.previousCalls self.taskAuthority with
  | some repeated => return repeated.toSupervisorOutput
  | none =>
    if self.guarded then self.deterministicGuard platform crypto userTask call observations
    else return llmOnly

def request (userTask : String) (call : ToolCall) (observations : List Observation) :
    Except PyError ProviderRequest := do
  let threshold ← Confidence.of self.confidenceThreshold
  return {
    userGoal := userTask
    proposedCall := call
    availableTools := self.availableTools
    observations := observations
    trustedPolicy := self.trustedPolicy.set "tool_effects" (toolEffects self.availableTools)
    taskAuthority := self.taskAuthority
    previousCalls := self.previousCalls
    argumentProvenance := inferProvenance platform userTask call observations
    stepAlreadyRewritten := self.stepAlreadyRewritten
    enableRewrite := self.enableRewrite && !self.stepAlreadyRewritten
    confidenceThreshold := threshold }

/-- A provider that is not sure enough asks for a review. -/
def confident (response : ProviderResponse) : ProviderResponse :=
  if (response.decision=.allow || response.decision=.rewrite) &&
      response.confidence.below self.confidenceThreshold then
    { response with
      decision := .escalate
      riskLevel := .high
      reason := "Provider confidence "++response.confidence.value.fixed++
        " is below the configured threshold "++self.confidenceThreshold.fixed++
        "; human review is required."
      rewrittenCall := none
      payload := by simp }
  else response

/-- `max(a, b, key=_risk_rank)`. -/
def maxRisk (a b : RiskLevel) : RiskLevel := firstMax RiskLevel.rank a [b]

/-- `_to_runtime_output`. -/
def toRuntimeOutput (response : ProviderResponse) (deterministic : SupervisorOutput)
    (originalCall : ToolCall) : SupervisorOutput :=
  SupervisorOutput.enforceAllowInvariants {
    decision := response.decision
    risk := maxRisk deterministic.risk response.riskLevel
    policyViolation := response.decision=.block
    goalRelevance := response.goalRelevance.runtime
    goalNecessity := response.necessity.runtime
    reason := response.reason
    matchedRules := [response.metadata.getD "llm"++"-supervisor"]
    rewrittenCall := if response.decision=.rewrite then
        response.rewrittenCall.map fun rewritten => { originalCall with
          toolName := rewritten.toolName
          arguments := rewritten.arguments }
      else none
    executionTarget := deterministic.executionTarget
    containerProfile := deterministic.containerProfile
    rewrites := fun h => by simp [h, response.payload.mp h]
    profiled := deterministic.profiled }

def providerFailure : SupervisorOutput :=
  verdict .escalate .high .weak .helpful
    "Supervisor LLM did not produce a valid decision; refusing to auto-allow."
    ["llm-supervisor-provider-failure"]

/-- A rewrite that the request does not admit is not passed on. -/
def conclude (request : ProviderRequest) (response : ProviderResponse) (guard : SupervisorOutput) :
    Except PyError SupervisorOutput :=
  match validateRewriteAgainstRequest platform response.toSupervisorResponse
      request.toSupervisorRequest with
  | .ok () => .ok (toRuntimeOutput response guard request.proposedCall)
  | .error (.schema message) =>
    .ok (verdict .escalate .high .weak .helpful message ["invalid-supervisor-rewrite"])
  | .error e => .error e

/-- The provider is asked once. -/
def ask (provider : SupervisorProvider) (request : ProviderRequest) :
    Talk PyError (Option SupervisorEvaluationLog) Consultation (Except String ProviderResponse) := do
  let answer ← consult fun log => provider.evaluate log request
  note (.evaluated request answer)
  return answer

/-- The session's state is `last_evaluation_log`. -/
def evaluate (provider : SupervisorProvider) (userTask : String) (call : ToolCall)
    (observations : List Observation) :
    Talk PyError (Option SupervisorEvaluationLog) Consultation SupervisorOutput := do
  let deterministic ← lift (self.deterministic platform crypto userTask call observations)
  let entry : SupervisorEvaluationLog := {
    userGoal := userTask
    proposedCall := call
    deterministicEnabled := self.guarded
    deterministicDecision := deterministic.decision
    providerCalled := false
    providerResponse := none
    finalDecision := deterministic }
  if deterministic.decision.withholds then
    update fun _ => some entry
    return deterministic
  else
    let request ← lift (self.request platform userTask call observations)
    match ← ask provider request with
    | .error message =>
      update fun _ => some { entry with
        providerCalled := true
        finalDecision := providerFailure
        error := some ("provider evaluation failed; used fallback decision: "++message) }
      return providerFailure
    | .ok response =>
      let response := self.confident response
      let final ← lift (conclude platform request response deterministic)
      update fun _ => some { entry with
        providerCalled := true
        providerResponse := some response
        finalDecision := final }
      return final

/-! After a run. -/

def sensitiveRe : Pattern where
  text := "\\b(secrets?|credentials?|password|token|api[_ -]?key|canary|private[_ -]?key)\\b"
  ignoreCase := true

def promptInjectionOutput : Pattern where
  text := "(?im)^\\s*(system|developer|assistant)\\s*:|"++
    "\\bignore\\s+(all\\s+)?previous\\b|"++
    "\\bread\\s+(the\\s+)?(secret|credential|password|token)"

def optionText {α : Type} [ToString α] : Option α → String
  | none => "None"
  | some a => toString a

/-- `_deterministic_post_run_assessment`. -/
def deterministicPostRunAssessment (evidence : SandboxEvidence) : PostRunAssessment :=
  if evidence.timedOut then
    ⟨.high, ["sandbox timed out"], .escalate,
      "Timed-out execution requires review before its result can be trusted."⟩
  else if evidence.blockedOperations≠[] then
    ⟨.high, evidence.blockedOperations, .blockResult, "Sandbox evidence shows blocked behavior."⟩
  else
    let suspiciousFiles := evidence.filesChanged.filter (platform.search sensitiveRe)
    if suspiciousFiles≠[] then
      ⟨.high, suspiciousFiles, .blockResult,
        "Execution created or changed a file with a sensitive name."⟩
    else match platform.groups promptInjectionOutput (evidence.stdout++"\n"++evidence.stderr) with
    | some found =>
      ⟨.high, [found.headD ""], .blockResult,
        "Execution output contains instruction-like sensitive content."⟩
    | none =>
      if evidence.exitCode=some 137 || (evidence.peakMemoryBytes.isSome &&
          occursIn "killed" (platform.casefold evidence.stderr)) then
        ⟨.high, ["exit_code="++optionText evidence.exitCode,
          "peak_memory_bytes="++optionText evidence.peakMemoryBytes], .blockResult,
          "Execution was killed after apparent resource exhaustion."⟩
      else if evidence.exitCode≠none ∧ evidence.exitCode≠some 0 then
        ⟨.medium, ["exit_code="++optionText evidence.exitCode,
          String.ofList (evidence.stderr.toList.take 400)], .blockResult,
          "Execution failed, so its output cannot be accepted as a successful result."⟩
      else
        ⟨.low, ["sandbox completed without blocked operations"], .acceptResult,
          "No dangerous post-run behavior observed."⟩

def postRunFailure : PostRunAssessment where
  risk := .high
  evidence := ["post-run supervisor unavailable"]
  disposition := .escalate
  reason := "The configured post-run model did not produce a valid assessment; "++
    "the sandbox result requires human review."

/-- The provider's assessment, unless it is not sure enough of a result that would be used. -/
def assess (response : PostRunSupervisorResponse) : PostRunAssessment :=
  if (response.disposition=.acceptResult || response.disposition=.rewriteAndRetry) &&
      response.confidence.below self.confidenceThreshold then
    { risk := maxRisk response.riskLevel .high
      evidence := response.evidence
      disposition := .escalate
      reason := "Post-run provider confidence "++response.confidence.value.fixed++" is below "++
        self.confidenceThreshold.fixed++"; human review is required." }
  else
    { risk := response.riskLevel
      evidence := response.evidence
      disposition := response.disposition
      reason := response.reason }

def reevaluate (provider : SupervisorProvider) (userTask : String) (call : ToolCall)
    (evidence : SandboxEvidence) :
    Talk PyError (Option SupervisorEvaluationLog) Consultation PostRunAssessment := do
  let deterministic := deterministicPostRunAssessment platform evidence
  if deterministic.disposition≠.acceptResult || !self.postRunProviderEnabled then
    return deterministic
  else
    let request : PostRunSupervisorRequest := ⟨userTask, call, evidence⟩
    let answer ← consult fun log => provider.evaluatePostRun log request
    note (.postRun request answer)
    match answer with
    | .error _ => return postRunFailure
    | .ok response => return self.assess response

end

end QwenSupervisor
end TraceGuard
