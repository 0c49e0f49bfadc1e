import TraceGuard.QwenSupervisor

/-! The boundary before a tool: the compiled authority, then a supervisor, which answers as it likes. What the
supervisor was asked and what it answered is recorded. -/
namespace TraceGuard
open Dialogue

/-- What `set_context` and `available_tools` tell a supervisor. -/
structure SupervisorContext where
  availableTools : Schemas
  previousCalls : List ToolCall
  taskAuthority : TaskAuthority
  stepAlreadyRewritten : Bool := false

structure Question where
  userTask : String
  call : ToolCall
  observations : List Observation
  context : SupervisorContext

structure Reply where
  question : Question
  answer : Except PyError SupervisorOutput

/-- A supervisor may answer by everything that was asked before. -/
abbrev Supervisor := List Reply → Question → Except PyError SupervisorOutput

/-- The guard of `DeterministicSupervisor`. -/
structure DeterministicSupervisor where
  guard : QwenSupervisor

namespace DeterministicSupervisor

def new (trustedPolicy : Dict Json) : DeterministicSupervisor where
  guard := {
    confidenceThreshold := Double.ofDecimal false 55 (-2)
    enableRewrite := false
    trustedPolicy := trustedPolicy }

def evaluate (self : DeterministicSupervisor) (platform : Platform) (crypto : Crypto)
    (context : SupervisorContext) (userTask : String) (call : ToolCall)
    (observations : List Observation) : Except PyError SupervisorOutput :=
  let guard := self.guard.setContext context.previousCalls context.taskAuthority none
    context.stepAlreadyRewritten
  { guard with availableTools := context.availableTools }.deterministicGuard platform crypto userTask
    call observations

def supervisor (self : DeterministicSupervisor) (platform : Platform) (crypto : Crypto) : Supervisor :=
  fun _ question => self.evaluate platform crypto question.context question.userTask question.call
    question.observations

end DeterministicSupervisor

inductive SupervisorMode where
  | deterministic
  | llm
  | deterministicLlm
  deriving DecidableEq, Repr

def SupervisorMode.parse (mode : String) : Except PyError SupervisorMode :=
  if mode="none" then .error (.value "strict authority cannot disable enforcement")
  else if mode="deterministic" then .ok .deterministic
  else if mode="llm" then .ok .llm
  else if mode="deterministic_llm" then .ok .deterministicLlm
  else .error (.value ("unknown supervisor mode: "++mode))

/-- The authority is strict, and compiled once. -/
structure SupervisionGateway (crypto : Crypto) where
  mode : SupervisorMode
  supervisor : Supervisor
  deterministic : DeterministicSupervisor
  taskAuthority : TaskAuthority
  availableTools : Schemas
  compiled : CompiledAuthority
  strict : taskAuthority.enforcementMode=.strict
  compiles : CompiledAuthority.compile crypto taskAuthority availableTools = .ok compiled

structure GatewayState where
  history : List ToolCall := []
  escalated : Bool := false

/-- The arguments of `evaluate`; the call's id is drawn by the gateway. -/
structure Proposal where
  taskId : String
  stepId : Nat
  userGoal : String
  toolName : String
  arguments : Dict Json
  observations : List Observation
  requestedResources : List String := []

def Proposal.call (proposal : Proposal) (callId : String) : ToolCall where
  taskId := proposal.taskId
  stepId := proposal.stepId
  toolName := proposal.toolName
  arguments := proposal.arguments
  consumedObservationIds := proposal.observations.map Observation.observationId
  requestedResources := proposal.requestedResources
  callId := callId

namespace SupervisionGateway

/-- `__init__`; a deterministic gateway makes its own supervisor. -/
def new (platform : Platform) (crypto : Crypto) (trustedPolicy : Dict Json) (mode : String)
    (supervisor : Option Supervisor) (availableTools : Schemas) (taskAuthority : Option TaskAuthority) :
    Except PyError (SupervisionGateway crypto) := do
  let mode ← SupervisorMode.parse mode
  match taskAuthority with
  | none => throw (.value "application-owned strict authority is required")
  | some authority =>
    if hstrict : authority.enforcementMode=.strict then
      let deterministic := DeterministicSupervisor.new trustedPolicy
      let supervisor ← match supervisor, mode with
        | some supervisor, _ => pure supervisor
        | none, .deterministic => pure (deterministic.supervisor platform crypto)
        | none, _ => throw (.value "LLM modes require an explicit supervisor")
      match hcompiles : CompiledAuthority.compile crypto authority availableTools with
      | .error e => throw e
      | .ok compiled => return {
        mode := mode
        supervisor := supervisor
        deterministic := deterministic
        taskAuthority := authority
        availableTools := availableTools
        compiled := compiled
        strict := hstrict
        compiles := hcompiles }
    else throw (.value "application-owned strict authority is required")

section
variable {crypto : Crypto} (self : SupervisionGateway crypto) (platform : Platform)

abbrev Act (α : Type) := Talk PyError GatewayState Reply α

def context (history : List ToolCall) (stepAlreadyRewritten : Bool := false) : SupervisorContext where
  availableTools := self.availableTools
  previousCalls := history
  taskAuthority := self.taskAuthority
  stepAlreadyRewritten := stepAlreadyRewritten

def consult (question : Question) : Act SupervisorOutput :=
  Dialogue.ask (fun log => self.supervisor log question) (Reply.mk question)

/-- `self.escalated = escalated`. -/
def escalate (escalated : Bool) : Act Unit := update fun s => { s with escalated := escalated }

/-- The arguments of a call under the schema of its tool. -/
def validate (call : ToolCall) : Except PyError Unit :=
  match self.availableTools.get? call.toolName with
  | none => .error (.schema "tool schema unavailable")
  | some schema => platform.validateArguments call.arguments schema

/-- The deterministic gate before an LLM; only what it withholds counts. -/
def gate (userGoal : String) (call : ToolCall) (observations : List Observation)
    (history : List ToolCall) : Except PyError (Option SupervisorOutput) :=
  if self.mode=.deterministicLlm then do
    let checked ← self.deterministic.evaluate platform crypto (self.context history) userGoal call
      observations
    return if checked.decision.withholds then some checked else none
  else .ok none

/-- The checks of a replacement before the supervisor sees it again. -/
def recheck (userGoal : String) (replacement : ToolCall) (observations : List Observation)
    (history : List ToolCall) : Except PyError (Option SupervisorOutput) := do
  match ← duplicateMutation replacement history self.taskAuthority with
  | some repeated => return some repeated.toSupervisorOutput
  | none =>
    let checked ← self.compiled.evaluate platform crypto userGoal replacement observations history
    if checked.decision≠.allow then return some checked
    else if self.mode=.deterministicLlm then
      let checked ← self.deterministic.evaluate platform crypto (self.context history) userGoal
        replacement observations
      return if checked.decision=.allow then none else some checked
    else return none

/-- A refused replacement is for a human, whatever was decided about it. -/
def refuse (checked : SupervisorOutput) : SupervisorOutput :=
  { checked with
    decision := .escalate
    rewrittenCall := none
    rewrites := SupervisorOutput.unrewritten .escalate Decision.escalate_ne }

/-- A rewrite replaces the call only when the replacement is allowed in every respect. -/
def reconsider (userGoal : String) (call replacement : ToolCall) (observations : List Observation)
    (history : List ToolCall) : Act (ToolCall × SupervisorOutput) := do
  match ← lift (self.recheck platform userGoal replacement observations history) with
  | some checked => return (call, refuse checked)
  | none =>
    let checked ← self.consult ⟨userGoal, replacement, observations, self.context history true⟩
    if checked.decision=.allow then return (replacement, checked)
    else return (call, refuse checked)

/-- The last check of what was decided. -/
def settle (decided : ToolCall × SupervisorOutput) : Act (ToolCall × SupervisorOutput) := do
  let decision := decided.2.enforceAllowInvariants
  if decision.decision=.escalate then escalate true
  return (decided.1, decision)

def supervise (userGoal : String) (call : ToolCall) (observations : List Observation)
    (history : List ToolCall) : Act (ToolCall × SupervisorOutput) := do
  let decision ← self.consult ⟨userGoal, call, observations, self.context history⟩
  match decision.decision, decision.rewrittenCall with
  | .rewrite, some replacement =>
    match validateReplacement platform call replacement userGoal observations self.taskAuthority
        self.availableTools with
    | .error (.schema _) =>
      escalate true
      return (call, output .escalate "invalid-rewrite" "Rewrite validation failed.")
    | .error e => throw e
    | .ok () => self.reconsider platform userGoal call replacement observations history >>= settle
  | _, _ => settle (call, decision)

/-- A call that the compiled authority allows, in its normal form. -/
def consider (userGoal : String) (call : ToolCall) (observations : List Observation)
    (history : List ToolCall) : Act (ToolCall × SupervisorOutput) := do
  match ← lift (duplicateMutation call history self.taskAuthority) with
  | some repeated => return (call, repeated.toSupervisorOutput)
  | none =>
    match self.validate platform call with
    | .error (.schema _) =>
      escalate true
      return (call, output .escalate "invalid-tool-schema" "Tool validation failed.")
    | .error e => throw e
    | .ok () =>
      match ← lift (self.gate platform userGoal call observations history) with
      | some checked =>
        escalate (checked.decision=.escalate)
        return (call, checked)
      | none => self.supervise platform userGoal call observations history

def evaluate (proposal : Proposal) (callId : String) : Act (ToolCall × SupervisorOutput) := do
  let call := proposal.call callId
  let state ← state
  if state.escalated then
    return (call, output .escalate "episode-escalated" "Task requires human review.")
  else
    let checked ← lift (self.compiled.evaluate platform crypto proposal.userGoal call
      proposal.observations state.history)
    if checked.decision≠.allow then
      escalate (checked.decision=.escalate)
      return (call, checked)
    else
      let normalized ← lift (self.compiled.normalizeRead crypto call)
      self.consider platform proposal.userGoal normalized proposal.observations state.history

/-- An executed call joins the history. -/
def observation (call : ToolCall) (content sourceType : String) (trust : TrustLabel)
    (observationId : String) : Act Observation := do
  update fun s => { s with history := s.history++[call] }
  return {
    content := content
    sourceType := sourceType
    sourceId := call.callId
    trust := trust
    provenanceChain := call.consumedObservationIds++[call.callId]
    mayContainInstructions := trust=.untrustedDocument || trust=.untrustedTool
    observationId := observationId }

end
end SupervisionGateway
end TraceGuard
