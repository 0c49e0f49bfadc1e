import TraceGuard.EmbeddedModels

/-! The embedded boundary: one call of an agent goes through the compiled authority, the policy and an optional
supervisor, is reserved in the ledger when it has an effect, and is then run by a tool or in a container. What
stands behind the boundary answers as it likes; everything it was asked is recorded. -/
namespace TraceGuard
open Dialogue

/-- The deterministic policy is always on, the authority is strict, and compiled once. -/
structure GuardedExecution (crypto : Crypto) where
  config : EnforcementConfig
  policy : PolicyConfig
  supervised : Bool
  sandboxed : Bool
  taskAuthority : TaskAuthority
  schemas : Schemas
  compiled : CompiledAuthority
  effectLedger : Option ExecutionLedger
  boundTaskId : String
  resultPolicyVersion : String
  strict : taskAuthority.enforcementMode=.strict
  compiles : CompiledAuthority.compile crypto taskAuthority schemas = .ok compiled
  bound : boundTaskId≠""
  explicit : resultPolicyVersion≠""
  reviewed : config.llmSupervisor = true → supervised = true

namespace GuardedExecution

/-- `__init__`. -/
def new (crypto : Crypto) (config : EnforcementConfig) (schemas : Schemas) (policy : Option PolicyConfig)
    (supervised sandboxed : Bool) (taskAuthority : Option TaskAuthority) (effectLedger : Option ExecutionLedger)
    (boundTaskId : Option String) (resultPolicyVersion : String := "embedded-result-v1") :
    Except PyError (GuardedExecution crypto) :=
  match taskAuthority, boundTaskId with
  | none, _ => .error (.value "application-owned strict authority is required")
  | some authority, boundTaskId =>
    if hstrict : authority.enforcementMode=.strict then
      match boundTaskId with
      | none => .error (.value "application-owned bound task ID is required")
      | some boundTaskId =>
        if hbound : boundTaskId="" then .error (.value "application-owned bound task ID is required")
        else if hversion : resultPolicyVersion="" then
          .error (.value "result policy version must be explicit and nonempty")
        else match hcompiles : CompiledAuthority.compile crypto authority schemas with
        | .error e => .error e
        | .ok compiled =>
          match policy with
          | none => .error (.value "deterministic policy is enabled but unavailable")
          | some policy =>
            if hreviewed : config.llmSupervisor=true → supervised=true then
              .ok {
                config := config
                policy := policy
                supervised := supervised
                sandboxed := sandboxed
                taskAuthority := authority
                schemas := schemas
                compiled := compiled
                effectLedger := effectLedger
                boundTaskId := boundTaskId
                resultPolicyVersion := resultPolicyVersion
                strict := hstrict
                compiles := hcompiles
                bound := hbound
                explicit := hversion
                reviewed := hreviewed }
            else .error (.value "LLM supervisor is enabled but unavailable")
    else .error (.value "application-owned strict authority is required")

abbrev Act (α : Type) := Talk BoundaryError BoundaryState Exchange α

/-- A check of the policy's code. -/
def checked {α : Type} (x : Except PyError α) : Act α := lift (x.mapError .policy)

section
variable {crypto : Crypto} (self : GuardedExecution crypto) (platform : Platform) (around : Surroundings)

def context (history : List ToolCall) (rewritten : Bool) : SupervisorContext where
  availableTools := self.schemas
  previousCalls := history
  taskAuthority := self.taskAuthority
  stepAlreadyRewritten := rewritten

/-- A question to a supervisor, whose exceptions leave the boundary. -/
def consult (question : Question) : Act Verdict := do
  match ← inquire (fun log => around.supervisor log question) (.consulted question) with
  | .ok verdict => return verdict
  | .error e => throw (.foreign e)

/-- `ledger.reserve`; its exceptions are values here. -/
def reserve (ledger : ExecutionLedger) (r : Reservation) : Act (Except LedgerError (Option Replay)) := fun s =>
  match ledger.reserve (around.scan s.log) r s.state.database with
  | .ok (replay, next) =>
    .ok (.ok replay) ⟨{ s.state with database := next }, s.log++[.ledger (.reserve r) (.ok (.reserved replay))]⟩
  | .error e => .ok (.error e) { s with log := s.log++[.ledger (.reserve r) (.error e)] }

/-- A later transaction of a reservation, if there is one; its exceptions leave the boundary. -/
def settle (reserved : Option ExecutionLedger) (call : ExecutionLedger.Call) : Act Unit := fun s =>
  match reserved with
  | none => .ok () s
  | some ledger =>
    match ledger.exec (around.scan s.log) s.state.database call with
    | .ok (reply, next) => .ok () ⟨{ s.state with database := next }, s.log++[.ledger call (.ok reply)]⟩
    | .error e => .error (.ledger e) { s with log := s.log++[.ledger call (.error e)] }

/-- `_validate_arguments_against_json_schema` under the schema of the call's tool. -/
def validate (call : ToolCall) : Except PyError Unit :=
  match self.schemas.get? call.toolName with
  | none => .error (.schema "tool schema unavailable")
  | some schema => platform.validateArguments call.arguments schema

/-- `_evaluate`, with what `_set_supervisor_context` gives the policy and the supervisor. -/
def evaluate (userTask : String) (call : ToolCall) (observations : List Observation) (rewritten : Bool) :
    Act (List Verdict) := do
  let previous := (← state).executedCalls call.taskId
  let granted ← checked (self.compiled.evaluate platform crypto userTask call observations previous)
  if granted.decision.withholds then return [⟨granted, .ok 0⟩]
  let call ← checked (self.compiled.normalizeRead crypto call)
  match ← checked (duplicateMutation call previous self.taskAuthority) with
  | some repeated => return [⟨repeated.toSupervisorOutput, .ok 0⟩]
  | none =>
    match self.validate platform call with
    | .error (.schema _) =>
      return [⟨output .escalate "invalid-tool-schema" "Tool validation failed.", .ok 0⟩]
    | .error e => throw (.policy e)
    | .ok () =>
      let policy : DeterministicPolicy := ⟨self.policy, self.taskAuthority, previous⟩
      let deterministic ← checked (policy.evaluate platform userTask call observations)
      if deterministic.decision.withholds || !self.config.llmSupervisor then
        return [⟨granted, .ok 0⟩, ⟨deterministic, .ok 0⟩]
      let verdict ← consult around ⟨userTask, call, observations, self.context previous rewritten⟩
      return [⟨granted, .ok 0⟩, ⟨deterministic, .ok 0⟩, verdict]

def tokens : List Verdict → Except PyError Int
  | [] => .ok 0
  | verdict :: verdicts => do
    let count ← verdict.tokens
    let rest ← tokens verdicts
    return count+rest

/-- The execution status of an outcome that names none itself. -/
def statusOf (outcome : EpisodeOutcome) (plan : Option ExecutionPlan) (observation : Option Observation) :
    ExecutionStatus :=
  if outcome=.executionUnknown ∨ outcome=.toolError then .unknown
  else if outcome=.replayed then .replayed
  else if outcome∈[.executed, .executedContainer, .blockResult] ∨
      (outcome=.escalate ∧ (plan.any fun plan => plan.target=.container) ∧ observation.isSome) then .dispatched
  else .notDispatched

/-- `_trace`. -/
def trace (proposed effective : ToolCall) (outputs : List Verdict) (plan : Option ExecutionPlan)
    (observation : Option Observation) (outcome : EpisodeOutcome) (status : Option ExecutionStatus := none) :
    Act TraceEvent := do
  if outcome=.escalate then update fun s => s.escalate proposed.taskId
  let usage ← checked (tokens outputs)
  if usage<0 then throw (.policy (.value "token_usage is negative"))
  return {
    taskId := proposed.taskId
    stepId := proposed.stepId
    proposedCall := proposed
    effectiveCall := effective
    safeguardOutputs := outputs
    executionPlan := plan
    resultObservationId := observation.map Observation.observationId
    resultDigest := observation.map fun observation => crypto.sha256 observation.content
    tokenUsage := usage
    policyVersion := self.policy.version
    episodeOutcome := outcome
    executionStatus := status.getD (statusOf outcome plan observation)
    resultReleased := outcome.released }

/-- `RuntimeResult` of a trace, with what of the observation is shown. -/
def report (proposed effective : ToolCall) (outputs : List Verdict) (plan : Option ExecutionPlan)
    (observation : Option Observation) (outcome : EpisodeOutcome) (shown : Option Observation)
    (postRun : Option PostRunAssessment := none) (status : Option ExecutionStatus := none) : Act RuntimeResult := do
  return ⟨← self.trace proposed effective outputs plan observation outcome status, shown, postRun⟩

/-- A result without an observation. -/
def withhold (proposed effective : ToolCall) (outputs : List Verdict) (plan : Option ExecutionPlan)
    (outcome : EpisodeOutcome) (status : Option ExecutionStatus := none) : Act RuntimeResult :=
  self.report proposed effective outputs plan none outcome none none status

/-- A call that passed the safeguards, with their outputs and what they merge to. -/
structure Approval where
  effective : ToolCall
  outputs : List Verdict
  merged : Option SupervisorOutput
  originalRewrite : Option SupervisorOutput

/-- The safeguards' part of `_execute_call`: what they let pass, or the result of a call that they do not. -/
def approve (userTask : String) (call : ToolCall) (observations : List Observation) :
    Act (Approval ⊕ RuntimeResult) := do
  let outputs ← self.evaluate platform around userTask call observations false
  let merged := mergeOutputs (outputs.map Verdict.output)
  match merged with
  | none => return .inl ⟨call, outputs, none, none⟩
  | some first =>
    let effective := if first.decision=.rewrite then first.rewrittenCall.getD call else call
    match first.decision with
    | .block => return .inr (← self.withhold call effective outputs none .block)
    | .escalate => return .inr (← self.withhold call effective outputs none .escalate)
    | .allow => return .inl ⟨effective, outputs, some first, none⟩
    | .rewrite =>
      match validateReplacement platform call effective userTask observations self.taskAuthority self.schemas with
      | .error (.schema _) => return .inr (← self.withhold call effective outputs none .escalate)
      | .error e => throw (.policy e)
      | .ok () =>
        let reevaluated ← self.evaluate platform around userTask effective observations true
        let outputs := outputs++reevaluated
        match mergeOutputs (reevaluated.map Verdict.output) with
        | none => return .inl ⟨effective, outputs, some first, some first⟩
        | some second =>
          match second.decision with
          | .block => return .inr (← self.withhold call effective outputs none .block)
          | .escalate | .rewrite => return .inr (← self.withhold call effective outputs none .escalate)
          | .allow => return .inl ⟨effective, outputs, some second, some first⟩

/-! Plans. -/

namespace Approval
variable (a : Approval)

def target : ExecutionTarget :=
  ((a.merged.bind SupervisorOutput.executionTarget).or
    (a.originalRewrite.bind SupervisorOutput.executionTarget)).getD .default

def profile : Option String :=
  let rewritten := a.originalRewrite.bind SupervisorOutput.containerProfile
  match a.merged.bind SupervisorOutput.containerProfile with
  | some profile => if profile≠"" then some profile else rewritten
  | none => rewritten

def inputPrefix : List Char := "input:".toList

def plan : Except PyError ExecutionPlan :=
  if h : a.target=.container → a.profile.getD ""≠"" then
    .ok {
      effectiveCall := a.effective
      target := a.target
      sandboxProfile := a.profile
      declaredInputPaths := (a.effective.requestedResources.filter fun resource =>
        inputPrefix.isPrefixOf resource.toList).map fun resource =>
          String.ofList (resource.toList.drop inputPrefix.length)
      profiled := h }
  else .error (.value "container execution requires a sandbox profile")

end Approval

/-! Reservations. -/

def digest (crypto : Crypto) (value : Json) : Except PyError String :=
  match canonical value with
  | some text => .ok (crypto.sha256 text)
  | none => .error (.value "not a JSON value")

def resultPolicy : Except PyError String :=
  digest crypto (.obj [("version", .str self.resultPolicyVersion), ("authority", .str self.compiled.digest),
    ("post_run", .bool self.config.postRunReevaluation), ("policy", self.policy.json)])

def payload (call : ToolCall) : Json :=
  .obj [("tool", .str call.toolName), ("arguments", .obj call.arguments.items),
    ("resources", .arr (call.requestedResources.map .str)), ("task", .str call.taskId)]

/-- `Decimal(str(arguments.get("amount", 0)))`. -/
def amount (call : ToolCall) : Except BoundaryError Decimal :=
  match call.arguments.get "amount" with
  | none => .ok (.ofNat 0)
  | some value =>
    match (numberText value).bind Decimal.ofText with
    | some amount => .ok amount
    | none => .error (.ledger (.decimal .invalidOperation))

def reservation (call effective : ToolCall) (policy : String) : Except BoundaryError Reservation := do
  let digest ← (digest crypto (payload effective)).mapError .policy
  let amount ← amount effective
  return {
    scope := ⟨"embedded", "application", self.compiled.digest, call.taskId⟩
    nonce := effective.callId
    idempotencyKey := effective.callId
    digest := digest
    effectDigest := digest
    amount := amount
    budgetLimit := self.taskAuthority.maxAmount.map fun b => String.ofList (Json.floatChars b.value)
    repeatable := effective.toolName∈self.taskAuthority.repeatableTools
    resultPolicy := policy }

def consequential (call : ToolCall) : Except PyError Bool := do
  return (← toolEffect call)∈[Effect.mutate, .command]

/-- The ledger in which an approved call was reserved, if any, or the result of a call that is not to be run. -/
def claim (call : ToolCall) (a : Approval) (plan : ExecutionPlan) (policy : String) :
    Act (Option ExecutionLedger ⊕ RuntimeResult) := do
  match self.effectLedger with
  | none => return .inl none
  | some ledger =>
    if !(← checked (consequential a.effective)) then return .inl none
    let r ← lift (self.reservation call a.effective policy)
    match ← reserve around ledger r with
    | .ok none => return .inl (some ledger)
    | .ok (some replay) =>
      match replay.disposition, replay.result with
      | .acceptedForAgent, some result =>
        match around.parse result with
        | none => throw (.policy (.value "stored observation is invalid"))
        | some observation =>
          return .inr (← self.report call a.effective a.outputs plan (some observation) .replayed (some observation))
      | .withheld, _ =>
        return .inr (← self.withhold call a.effective a.outputs plan .blockResult (some .replayed))
      | _, _ => return .inr (← self.withhold call a.effective a.outputs plan .escalate (some .replayed))
    | .error (.executionUnknown _) | .error (.authorization _) =>
      return .inr (← self.withhold call a.effective a.outputs plan .escalate)
    | .error e => throw (.ledger e)

/-! Dispatch. -/

/-- `_receipt`. -/
def receipt (observation : Observation) : String :=
  around.dump { observation with content := platform.redactReceipt observation.content }

def chain (call : ToolCall) : List String := call.consumedObservationIds++[call.callId]

def simulated (call : ToolCall) (observationId : String) : Observation where
  content := "\x7b\"status\":\"simulated\",\"host_execution\":false\x7d"
  sourceType := "simulation"
  sourceId := call.callId
  trust := .untrustedTool
  provenanceChain := chain call
  observationId := observationId

def evidenced (call : ToolCall) (evidence : SandboxEvidence) (observationId : String) : Observation where
  content := around.dumpEvidence evidence
  sourceType := "sandbox"
  sourceId := call.callId
  trust := .untrustedTool
  provenanceChain := chain call
  mayContainInstructions := true
  observationId := observationId

def failed (call : ToolCall) (uncertain : Bool) (error : Raised) (observationId : String) : Observation where
  content := if uncertain then "Effect outcome unknown; reconcile before retry."
    else error.name++": "++platform.redactText error.text
  sourceType := "tool_error"
  sourceId := call.callId
  trust := .trustedTool
  provenanceChain := chain call
  observationId := observationId

/-- The review of a container run; `none` is one that failed. -/
def review (userTask : String) (call : ToolCall) (evidence : SandboxEvidence) : Act (Option PostRunAssessment) := do
  if !self.supervised then return none
  match ← inquire (fun log => around.reevaluate log userTask call evidence) (.reviewed userTask call evidence) with
  | .ok assessment => return assessment
  | .error e => if e.kind=.exit then throw (.foreign e) else return none

/-- `reject_artifacts`, where the sandbox has it. -/
def discard (postRun : PostRunAssessment) (evidence : SandboxEvidence) : Act Unit := do
  match postRun.disposition, around.rejectArtifacts with
  | .blockResult, some reject =>
    match ← inquire (fun log => reject log evidence) (.rejected evidence) with
    | .ok () => return
    | .error e => throw (.foreign e)
  | _, _ => return

/-- The result of a container run whose review did not accept it. -/
def refuse (call : ToolCall) (a : Approval) (plan : ExecutionPlan) (evidence : SandboxEvidence)
    (observation : Observation) (postRun : PostRunAssessment) : Act RuntimeResult := do
  discard around postRun evidence
  let outcome := if postRun.disposition=.blockResult then EpisodeOutcome.blockResult else .escalate
  self.report call a.effective a.outputs plan (some observation) outcome none (some postRun)

def runContainer (userTask : String) (call : ToolCall) (a : Approval) (plan : ExecutionPlan)
    (reserved : Option ExecutionLedger) (policy observationId : String) : Act RuntimeResult := do
  let nonce := a.effective.callId
  if !self.sandboxed then
    settle around reserved (.finish nonce .notDispatched none .reviewRequired)
    self.withhold call a.effective a.outputs plan .escalate
  else
    match ← inquire (fun log => around.sandbox log plan) (.contained plan) with
    | .error .unavailable =>
      settle around reserved (.finish nonce .unknown none .reviewRequired)
      self.withhold call a.effective a.outputs plan .escalate (some .unknown)
    | .error (.raised e) => throw (.foreign e)
    | .ok evidence =>
      update fun s => s.append call.taskId a.effective
      let observation := evidenced around call evidence observationId
      settle around reserved (.finish nonce .succeeded (receipt platform around observation)
        (if self.config.postRunReevaluation then .pendingReview else .acceptedForAgent))
      if self.config.postRunReevaluation then
        match ← self.review around userTask a.effective evidence with
        | none =>
          settle around reserved (.decideResult nonce .reviewRequired policy)
          self.report call a.effective a.outputs plan (some observation) .escalate none none (some .dispatched)
        | some postRun =>
          settle around reserved (.decideResult nonce postRun.disposition.stored policy)
          if postRun.disposition=.acceptResult then
            self.report call a.effective a.outputs plan (some observation) .executedContainer (some observation)
              (some postRun)
          else self.refuse around call a plan evidence observation postRun
      else
        self.report call a.effective a.outputs plan (some observation) .executedContainer (some observation)

def runTool (call : ToolCall) (a : Approval) (plan : ExecutionPlan) (reserved : Option ExecutionLedger)
    (observationId : String) : Act RuntimeResult := do
  let nonce := a.effective.callId
  match ← inquire (fun log => around.tools log a.effective) (.handled a.effective) with
  | .error e =>
    if e.kind=.expected then
      let uncertain ← checked (consequential a.effective)
      settle around reserved (.finish nonce .unknown none .reviewRequired)
      if uncertain then update fun s => (s.append call.taskId a.effective).escalate call.taskId
      let observation := failed platform call uncertain e observationId
      let outcome := if uncertain then EpisodeOutcome.executionUnknown else .toolError
      self.report call a.effective a.outputs plan (some observation) outcome (some observation)
    else
      settle around reserved (.finish nonce .unknown none .reviewRequired)
      throw (.foreign e)
  | .ok observation =>
    settle around reserved (.finish nonce .succeeded (receipt platform around observation) .acceptedForAgent)
    update fun s => s.append call.taskId a.effective
    let outcome := if a.effective.toolName="restricted_command" ∨ a.target=.simulated then EpisodeOutcome.simulated
      else .executed
    self.report call a.effective a.outputs plan (some observation) outcome (some observation)

/-- An approved call under its plan. -/
def perform (userTask : String) (call : ToolCall) (a : Approval) (observationId : String) : Act RuntimeResult := do
  let plan ← checked a.plan
  if a.target=.simulated ∨ (a.effective.toolName="restricted_command" ∧ a.target=.default) then
    let observation := simulated call observationId
    let plan := { plan with
      target := .simulated
      profiled := fun h => absurd h (by decide) }
    self.report call a.effective a.outputs (some plan) (some observation) .simulated (some observation)
  else
    let policy ← checked self.resultPolicy
    match ← self.claim around call a plan policy with
    | .inr result => return result
    | .inl reserved =>
      if a.target=.container then self.runContainer platform around userTask call a plan reserved policy observationId
      else self.runTool platform around call a plan reserved observationId

/-- `execute_call`; `observationId` is the identifier that an observation of the boundary draws. -/
def executeCall (userTask : String) (call : ToolCall) (observations : List Observation) (observationId : String) :
    Act RuntimeResult := do
  if call.taskId≠self.boundTaskId then
    self.withhold call call
      [⟨output .block "wrong-task" "Task ID differs from approved scope.", .ok 0⟩] none .block
  else if call.taskId∈(← state).escalatedTasks then
    self.withhold call call
      [⟨output .escalate "episode-escalated" "Episode requires human review.", .ok 0⟩] none .escalate
  else
    match ← self.approve platform around userTask call observations with
    | .inr result => return result
    | .inl approval => self.perform platform around userTask call approval observationId

end
end GuardedExecution
end TraceGuard
