import TraceGuard.ControlPlane
import TraceGuard.Executor

/-! Issuance and validation of execution grants over the control plane's state. -/
namespace TraceGuard
open Stateful

/-- How a model writes its JSON: no gaps, and only what JSON requires escaped. -/
def modelStyle : Json.Style := { gap := [], blank := Json.blank_nil, ascii := false }

/-- `model_dump_json()`. -/
def ExecutionGrant.dumpJson (g : ExecutionGrant) : String :=
  String.ofList (Json.chars modelStyle g.dump)

/-- An issuer; its key is the control plane's own or a separate one. -/
structure ExecutionAuthority where
  signer : String

namespace ExecutionAuthority
open ControlPlane

def keyId : String := "execution-ed25519-v1"

def raise {α : Type} : Except PyError α → Except ServiceError α
  | .ok a => .ok a
  | .error e => .error (.python e)

/-- The call that a grant is checked as. -/
def toolCall (action : ActionRequest) : ToolCall where
  taskId := action.taskId
  stepId := 0
  toolName := action.operation
  arguments := ⟨action.arguments.members, action.arguments.distinct⟩
  callId := ""

/-- `issued["tenant_id"]` and `issued["task_id"]` of a stored grant. -/
def grantedTask (serialized : String) : Option (String × String) :=
  match Json.loads serialized with
  | some (.obj members) =>
    match members.lookup "tenant_id", members.lookup "task_id" with
    | some (.str tenant), some (.str task) => some (tenant, task)
    | _, _ => none
  | _ => none

section
variable (world : World)

def register (tenant : String) (actor : Actor) (registration : TaskRegistration) :
    Operation String := do
  if registration.authority.delegatedFields.entries≠[] then
    throw (.value "execution grants require an authenticated source adapter before delegation")
  let compiled ← inspect fun _ =>
    raise (CompiledAuthority.compile world.crypto registration.authority registration.toolSchemas)
  let key := [tenant, registration.taskId]
  inspect fun s => do
    s.require actor .admin tenant
    if (s.executionTasks.get? key).isSome then
      throw (.value "task registration is immutable; create a newly approved task")
  let task : RegisteredTask := {
    principal := registration.agentSubject
    credential := registration.serviceKeyId
    compiled := compiled
    adapterDigest := registration.adapterDigest
    executionDomain := registration.executionDomain }
  update fun s => { s with executionTasks := s.executionTasks.insert key task }
  let _ ← appendAudit world tenant "task.registered" actor.subject (textArguments
    [("task_id", registration.taskId), ("authority_digest", compiled.digest)])
  return compiled.digest

/-- `_task`: the registered task that allows the action. -/
def taskFor (s : ControlState) (actor : Actor) (action : ActionRequest) :
    Except ServiceError RegisteredTask := do
  s.require actor .agent action.tenantId
  if action.kind≠.tool then
    throw (.authorization "execution grants support typed tools only")
  match s.executionTasks.get? [action.tenantId, action.taskId] with
  | none => throw (.authorization "task is not registered for this principal and credential")
  | some task =>
    if (actor.subject, actor.serviceKeyId)≠(task.principal, some task.credential) then
      throw (.authorization "task is not registered for this principal and credential")
    if task.executionDomain="" then
      throw (.authorization "legacy task requires fenced execution-domain approval")
    let verdict ← raise (task.compiled.evaluate world.platform world.crypto "" (toolCall action) [])
    if verdict.decision≠.allow then
      throw (.authorization "action exceeds the registered strict task grant")
    return task

/-- The new domain of a task; grants issued before are dropped. -/
def bindDomain (s : ControlState) (tenant taskId : String) (task : RegisteredTask)
    (domain : String) : ControlState :=
  { s with
    executionTasks := s.executionTasks.insert [tenant, taskId] { task with executionDomain := domain }
    executionIssued := s.executionIssued.filter fun _ serialized =>
      grantedTask serialized≠some (tenant, taskId) }

def bindLegacyDomain (tenant : String) (actor : Actor) (taskId executionDomain : String)
    (workersFenced : Bool) : Operation Unit := do
  if workersFenced = false ∨ executionDomain="" ∨ 128<executionDomain.length then
    throw (.value "fenced workers and an approved migrated ledger are required")
  let task ← inspect fun s => do
    s.require actor .admin tenant
    match s.executionTasks.get? [tenant, taskId] with
    | none => throw (.key "task")
    | some task =>
      if task.executionDomain≠"" then
        throw (.value "existing task execution domains are immutable")
      return task
  update fun s => bindDomain s tenant taskId task executionDomain
  let _ ← appendAudit world tenant "task.domain-approved" actor.subject
    (textArguments [("task_id", taskId), ("execution_domain", executionDomain)])

/-- The resolved review on whose strength an escalated action is granted. -/
def grantingReview (s : ControlState) (actor : Actor) (action : ActionRequest)
    (decision : DecisionResponse) (reviewId : Option String) (t : Instant) :
    Except ServiceError Review :=
  match s.reviews.get? (reviewId.getD "") with
  | none => .error (.authorization "action requires a current action-bound review")
  | some review =>
    if some review.reviewId≠decision.reviewId ∨ review.status≠.resolved ∨
        review.resolution≠some .allow ∨ review.grantNonce.isSome = true ∨
        review.expiresAt.micros ≤ t.micros ∨
        review.actionDigest≠world.crypto.actionDigest action ∨
        s.epochs.get? action.tenantId≠some review.policyEpoch ∨
        (review.agentSubject, some review.serviceKeyId, review.taskId)≠
          (actor.subject, actor.serviceKeyId, action.taskId) then
      .error (.authorization "action requires a current action-bound review")
    else .ok review

/-- The review that permits the grant, if one is needed. -/
def permitIssue (actor : Actor) (action : ActionRequest) (decision : DecisionResponse)
    (reviewId : Option String) : Operation (Option Review) := do
  match decision.decision with
  | .escalate =>
    let t ← now world
    let review ← inspect fun s => grantingReview world s actor action decision reviewId t
    return some review
  | .allow => return none
  | _ => throw (.authorization "policy does not authorize grant issuance")

/-- The amount of the action as a grant states it. -/
def grantAmount (action : ActionRequest) : Except ServiceError String :=
  match paymentAmount action with
  | .ok amount => .ok amount.str
  | .error _ => .error (.value "invalid payment amount")

/-- The unsigned grant of a permitted action. -/
def draftGrant (s : ControlState) (actor : Actor) (action : ActionRequest) (audience : String)
    (task : RegisteredTask) (nonce : String) (expires issued : Instant) :
    Except ServiceError ExecutionGrant := do
  let scope ← raise task.compiled.scope
  match s.activePolicy action.tenantId with
  | none => throw (.authorization "active policy is unavailable")
  | some policy =>
    match s.epochs.get? action.tenantId with
    | none => throw (.key action.tenantId)
    | some epoch =>
      let amount ← grantAmount action
      if epoch=0 then throw (.value "policy_epoch must be at least 1")
      return {
        nonce := nonce
        tenantId := action.tenantId
        taskId := action.taskId
        agentSubject := actor.subject
        serviceKeyId := actor.serviceKeyId.getD ""
        audience := audience
        executionDomain := task.executionDomain
        actionDigest := world.crypto.actionDigest action
        authorityDigest := task.compiled.digest
        adapterDigest := task.adapterDigest
        policyId := policy.policyId
        policyEpoch := epoch
        issuedAt := .utc issued
        expiresAt := .utc (expires.later (seconds 60))
        repeatable := action.operation∈scope.repeatableTools
        amount := amount
        budgetLimit := scope.maxAmount.map fun b => String.ofList (Json.floatChars b.value)
        keyId := keyId
        signature := "" }

def grantPayload (g : ExecutionGrant) (reviewId : Option String) : Arguments where
  members := [("nonce", .str g.nonce), ("action_digest", .str g.actionDigest),
    ("review_id", optional reviewId)]
  distinct := by simp
  plain := by simp [Json.plainMembers, Json.plain, optional_plain]

/-- Keep the grant, and mark the review that it used. -/
def recordGrant (s : ControlState) (grant : ExecutionGrant) (review : Option Review) : ControlState :=
  let issued := { s with executionIssued := s.executionIssued.insert grant.nonce grant.dumpJson }
  match review with
  | some review => setReview issued { review with grantNonce := some grant.nonce }
  | none => issued

variable (self : ExecutionAuthority)

def issue (actor : Actor) (action : ActionRequest) (audience : String)
    (reviewId : Option String := none) : Operation ExecutionGrant := do
  let task ← inspect fun s => taskFor world s actor action
  let decision ← ControlPlane.evaluate world actor action
  let review ← permitIssue world actor action decision reviewId
  let expires ← now world
  let nonce ← uuid4 world
  let issued ← now world
  let draft ← inspect fun s => draftGrant world s actor action audience task nonce expires issued
  let grant := { draft with
    signature := world.crypto.sign self.signer (Json.text Json.compact draft.unsigned) }
  update fun s => recordGrant s grant review
  let _ ← appendAudit world action.tenantId "execution.granted" actor.subject
    (grantPayload grant reviewId)
  return grant

/-- The grant is the issued one, signed, unexpired and of the tenant's present epoch. -/
def current (s : ControlState) (executor : Actor) (action : ActionRequest) (grant : ExecutionGrant)
    (t : Instant) : Bool :=
  grant.audience=executor.subject && grant.keyId=keyId &&
  s.executionIssued.get? grant.nonce = some grant.dumpJson &&
  world.crypto.verifyValue (world.crypto.publicKey self.signer) grant.unsigned grant.signature &&
  grant.expiresAt.after t && grant.actionDigest=world.crypto.actionDigest action &&
  s.epochs.get? action.tenantId = some grant.policyEpoch

def grantee (grant : ExecutionGrant) : Actor where
  subject := grant.agentSubject
  roles := [.agent]
  serviceKeyId := some grant.serviceKeyId
  tenantIds := [grant.tenantId]

/-- The checks of `validate` at an instant. -/
def admissible (s : ControlState) (executor : Actor) (action : ActionRequest)
    (grant : ExecutionGrant) (t : Instant) : Except ServiceError Unit := do
  s.require executor .executor action.tenantId
  if Role.agent∈executor.roles ∨ executor.serviceKeyId.getD ""="" then
    throw (.authorization "executor requires a distinct service identity")
  if self.current world s executor action grant t = false then
    throw (.authorization "execution grant is invalid, expired or revoked")
  let task ← taskFor world s (grantee grant) action
  if task.executionDomain≠grant.executionDomain then
    throw (.authorization "execution domain differs from approved task")
  if task.compiled.digest≠grant.authorityDigest then
    throw (.authorization "task authority changed")

def validate (executor : Actor) (action : ActionRequest) (grant : ExecutionGrant) :
    Operation Unit := do
  let t ← now world
  inspect fun s => self.admissible world s executor action grant t

end
end ExecutionAuthority
end TraceGuard
