import TraceGuard.ControlModels
import TraceGuard.Redaction
import TraceGuard.Stateful

/-! The control plane's service. Each operation first checks and then changes the state; what an
operation has changed before it raises stays changed. -/
namespace TraceGuard
open Stateful

/-- What the service takes from its environment. The clock gives one instant per reading, and
`uuid4` never repeats. -/
structure World where
  platform : Platform
  crypto : Crypto
  clock : Nat → Instant
  uuid : Nat → String
  fresh : Function.Injective uuid

inductive ServiceError where
  | authorization (message : String)
  | conflict (message : String)
  | value (message : String)
  | key (message : String)
  | python (error : PyError)
  | capacity
  deriving DecidableEq, Repr

/-- The state with the numbers of clock readings and of identifiers used so far. -/
structure Machine where
  plane : ControlState := {}
  readings : Nat := 0
  identifiers : Nat := 0

abbrev Operation (α : Type) := EStateM ServiceError Machine α

def seconds (n : Nat) : Nat := n*1000000

/-- A `dict` of texts. -/
def textArguments (members : List (String × String))
    (h : (members.map Prod.fst).Nodup := by simp) : Arguments where
  members := members.map fun m => (m.1, .str m.2)
  distinct := by simpa [Function.comp_def] using h
  plain := by
    refine Json.plainMembers_iff.mpr fun m hm => ?_
    obtain ⟨_, _, rfl⟩ := List.mem_map.mp hm
    rfl

namespace ControlState
variable (s : ControlState)

/-- `_require`. -/
def require (actor : Actor) (role : Role) (tenant : String) : Except ServiceError Unit :=
  if tenant∉actor.tenantIds then
    .error (.authorization "principal is not authorized for this tenant")
  else if role∉actor.roles then
    .error (.authorization ("missing required role: "++role.value))
  else if (role=.agent ∨ role=.executor) ∧ s.suspended tenant = true then
    .error (.authorization "tenant execution is suspended")
  else if (match actor.serviceKeyId with
      | some key => key≠"" && s.revoked tenant key
      | none => false) then
    .error (.authorization "service credential is revoked")
  else .ok ()

/-- `_policy`. -/
def policy (tenant policyId : String) : Except ServiceError PolicyVersion :=
  match (s.policiesOf tenant).find? fun p => p.policyId=policyId with
  | some p => .ok p
  | none => .error (.key "policy not found")

/-- A new authority for the tenant. -/
def advance (tenant : String) : ControlState :=
  { s with epochs := s.epochs.insert tenant (s.epoch tenant+1) }

/-- Change the first policy with the id. -/
def changePolicy (policyId : String) (f : PolicyVersion → PolicyVersion) :
    List PolicyVersion → List PolicyVersion
  | [] => []
  | p :: ps => if p.policyId=policyId then f p :: ps else p :: changePolicy policyId f ps

def setPolicies (tenant : String) (policies : List PolicyVersion) : ControlState :=
  { s with policies := s.policies.insert tenant policies }

end ControlState

/-- An active policy becomes a historical one. -/
def PolicyVersion.retire (p : PolicyVersion) : PolicyVersion :=
  if p.status=.active then { p with status := .rolledBack } else p

def PolicyVersion.activate (subject : String) (activatedAt : Instant) (p : PolicyVersion) : PolicyVersion :=
  { p with status := .active, approvedBy := some subject, activatedAt := some activatedAt }

def ControlState.activatePolicy (s : ControlState) (tenant subject policyId : String)
    (activatedAt : Instant) : ControlState :=
  (s.setPolicies tenant (ControlState.changePolicy policyId (PolicyVersion.activate subject activatedAt)
    ((s.policiesOf tenant).map PolicyVersion.retire))).advance tenant

def Review.resolve (subject : String) (resolution : ReviewResolution) (reason : String)
    (r : Review) : Review :=
  { r with
    status := .resolved
    resolution := some resolution
    resolvedBy := some subject
    reason := some reason }

namespace ControlPlane
variable (world : World)

/-- `datetime.now(UTC)`. -/
def now : Operation Instant := fun m =>
  .ok (world.clock m.readings) { m with readings := m.readings+1 }

/-- `str(uuid4())`. -/
def uuid4 : Operation String := fun m =>
  .ok (world.uuid m.identifiers) { m with identifiers := m.identifiers+1 }

def update (f : ControlState → ControlState) : Operation Unit :=
  modify fun m => { m with plane := f m.plane }

def inspect {α : Type} (f : ControlState → Except ServiceError α) : Operation α :=
  check fun m => f m.plane

/-- The event that follows the recorded ones. -/
def nextEvent (s : ControlState) (tenant eventType actor : String) (payload : Arguments)
    (auditId : String) (createdAt : Instant) : AuditEvent :=
  let events := s.auditsOf tenant
  let event : AuditEvent := {
    auditId := auditId
    tenantId := tenant
    eventType := eventType
    actor := actor
    payload := .of (.obj (world.platform.redactMembers payload.members))
    previousHash := events.getLast?.map AuditEvent.eventHash
    eventHash := ""
    createdAt := createdAt
    sequence := events.length+1 }
  { event with eventHash := world.crypto.digest event.body }

def ControlState.record (s : ControlState) (event : AuditEvent) : ControlState :=
  { s with
    audits := s.audits.insert event.tenantId (s.auditsOf event.tenantId++[event])
    auditHeads := s.auditHeads.insert event.tenantId (event.sequence, event.eventHash) }

/-- `_append_audit`. -/
def appendAudit (tenant eventType actor : String) (payload : Arguments) : Operation AuditEvent := do
  let auditId ← uuid4 world
  let createdAt ← now world
  let m ← get
  let event := nextEvent world m.plane tenant eventType actor payload auditId createdAt
  update fun s => ControlState.record s event
  return event

def policyPayload (policyId : String) : Arguments := textArguments [("policy_id", policyId)]

def revokeCredential (tenant : String) (actor : Actor) (credentialId : String) : Operation Unit := do
  inspect fun s => do
    s.require actor .admin tenant
    if credentialId="" ∨ 256 < credentialId.length then throw (.value "invalid credential ID")
  update fun s => { s with
    revokedCredentials := s.revokedCredentials.insert [tenant, credentialId] () }
  update (·.advance tenant)
  let _ ← appendAudit world tenant "credential.revoked" actor.subject
    (textArguments [("credential_id", credentialId)])

def suspendTenant (tenant : String) (actor : Actor) (suspended : Bool) : Operation Unit := do
  inspect fun s => s.require actor .admin tenant
  update fun s => { s with
    suspendedTenants := if suspended then s.suspendedTenants.insert tenant ()
      else s.suspendedTenants.erase tenant }
  update (·.advance tenant)
  let _ ← appendAudit world tenant "tenant.suspension" actor.subject
    ⟨[("suspended", .bool suspended)], by simp, rfl⟩

def createDraft (tenant : String) (actor : Actor) (draft : PolicyDraft) : Operation PolicyVersion := do
  inspect fun s => s.require actor .admin tenant
  let policyId ← uuid4 world
  let createdAt ← now world
  let m ← get
  let policy : PolicyVersion := {
    policyId := policyId
    tenantId := tenant
    version := (m.plane.policiesOf tenant).length+1
    draft := draft
    createdBy := actor.subject
    createdAt := createdAt }
  update fun s => s.setPolicies tenant (s.policiesOf tenant++[policy])
  let _ ← appendAudit world tenant "policy.drafted" actor.subject (policyPayload policyId)
  return policy

def submitPolicy (tenant : String) (actor : Actor) (policyId : String) : Operation PolicyVersion := do
  inspect fun s => do
    s.require actor .admin tenant
    let policy ← s.policy tenant policyId
    if policy.createdBy≠actor.subject then
      throw (.authorization "only the policy author may submit this draft")
    if policy.status≠.draft then throw (.value "only drafts may be submitted")
  update fun s => s.setPolicies tenant (ControlState.changePolicy policyId
    (fun p => { p with status := .pendingApproval }) (s.policiesOf tenant))
  let _ ← appendAudit world tenant "policy.submitted" actor.subject (policyPayload policyId)
  inspect fun s => s.policy tenant policyId

def approvePolicy (tenant : String) (actor : Actor) (policyId : String) : Operation PolicyVersion := do
  inspect fun s => do
    s.require actor .approver tenant
    let policy ← s.policy tenant policyId
    if policy.status≠.pendingApproval then throw (.value "policy is not pending approval")
    if policy.createdBy=actor.subject then
      throw (.authorization "policy author cannot approve their own change")
  let activatedAt ← now world
  update fun s => s.activatePolicy tenant actor.subject policyId activatedAt
  let _ ← appendAudit world tenant "policy.activated" actor.subject (policyPayload policyId)
  inspect fun s => s.policy tenant policyId

def rollback (tenant : String) (actor : Actor) (policyId : String) : Operation PolicyVersion := do
  inspect fun s => do
    s.require actor .approver tenant
    let target ← s.policy tenant policyId
    if target.status≠.rolledBack then throw (.value "only a historical policy can be restored")
  let activatedAt ← now world
  update fun s => s.activatePolicy tenant actor.subject policyId activatedAt
  let _ ← appendAudit world tenant "policy.rolled_back" actor.subject (policyPayload policyId)
  inspect fun s => s.policy tenant policyId

/-! Decisions on actions. -/

def instructionPattern : Pattern where
  text := "(?i)\\b(?:ignore (?:previous|all) instructions|system prompt|reveal secrets|exfiltrate)\\b"

/-- `matches`. -/
def ruleMatches (criteria : RuleMatch) (action : ActionRequest) : Bool :=
  let instructions := action.evidence.any fun item => item.containsInstructions ||
    world.platform.search instructionPattern item.content
  (match criteria.kind with
    | some kind => kind=action.kind
    | none => true) &&
  (match criteria.operation with
    | some operation => operation=action.operation
    | none => true) &&
  (match criteria.targetPrefix with
    | some scope =>
      if action.kind=.http then targetWithinScope world.platform scope (action.target.getD "")
      else scope.toList.isPrefixOf (action.target.getD "").toList
    | none => true) &&
  (criteria.argumentEquals.entries.all fun e =>
    sameValue ((action.arguments.get e.1).getD .null) e.2.val) &&
  (match criteria.containsUntrustedInstructions with
    | some expected => expected=instructions
    | none => true)

def precedence : Decision → Nat
  | .block => 3
  | .escalate => 2
  | .rewrite => 1
  | .allow => 0

/-- The rule comes after the other in the order of decision, priority and id. -/
def outranks (r r' : PolicyRule) : Bool :=
  precedence r'.decision<precedence r.decision ||
  (precedence r'.decision=precedence r.decision && (r'.priority < r.priority ||
    (r'.priority=r.priority && r'.ruleId < r.ruleId)))

/-- `select_rule`: the first matching rule that none outranks. -/
def selectRule (policy : PolicyVersion) (action : ActionRequest) : Option PolicyRule :=
  (policy.draft.rules.filter fun rule => ruleMatches world rule.criteria action).foldl
    (fun best rule => match best with
      | some b => if outranks rule b then some rule else some b
      | none => some rule) none

def decision (action : ActionRequest) (decision : Decision) (reason : String)
    (policy : Option PolicyVersion) (rewrite : Option (SortedMap String Json.Doc) := none) :
    DecisionResponse where
  decision := decision
  reason := reason
  policyId := policy.map PolicyVersion.policyId
  policyVersion := policy.map PolicyVersion.version
  auditId := "pending"
  rewrittenArguments := rewrite
  actionDigest := some (world.crypto.actionDigest action)

/-- What the active policy says about an action. -/
def decideAction (s : ControlState) (action : ActionRequest) : DecisionResponse :=
  match s.activePolicy action.tenantId with
  | none => decision world action .block "no active policy" none
  | some policy =>
    match selectRule world policy action with
    | none => decision world action policy.draft.defaultDecision "policy default" (some policy)
    | some rule => decision world action rule.decision rule.reason (some policy) rule.rewrite

/-- The payload of an evaluation's event; secrets in arguments and evidence are redacted. -/
def evaluatedPayload (action : ActionRequest) (result : DecisionResponse) : Arguments where
  members :=
    [("action_id", .str action.actionId), ("kind", .str action.kind.value),
      ("operation", .str action.operation), ("target", optional action.target),
      ("arguments", .obj (world.platform.redactMembers action.arguments.members)),
      ("provenance", .arr (action.provenance.map .str)),
      ("evidence", .arr (world.platform.redactItems (action.evidence.map Evidence.dump))),
      ("decision", .str result.decision.value), ("policy_id", optional result.policyId)]
  distinct := by simp
  plain := by
    have hp : Json.plainItems (action.provenance.map Json.str) = true := by
      simp [Json.plainItems_iff, Json.plain]
    have he : Json.plainItems (action.evidence.map Evidence.dump) = true := by
      simp [Json.plainItems_iff, Json.plain, Json.plainMembers, Evidence.dump]
    simp [Json.plainMembers, Json.plain, optional_plain, hp, Re.redactItems_plain _ _ he,
      Re.redactMembers_plain _ _ action.arguments.plain]

def reviewPayload (r : Review) : Arguments where
  members := r.members
  distinct := by simp [Review.members]
  plain := by
    simp [Review.members, Json.plainMembers, Json.plain, optional_plain, instantJson]

/-- The review of an escalated action. An epoch below one is no valid review. -/
def openReview (actor : Actor) (credential : String) (action : ActionRequest) (auditId : String)
    (epoch : Nat) : Operation Review := do
  let reviewId ← uuid4 world
  let created ← now world
  if h : 1≤epoch then
    let review : Review := {
      reviewId := reviewId
      tenantId := action.tenantId
      actionId := action.actionId
      auditId := auditId
      expiresAt := created.later (seconds (24*3600))
      actionDigest := world.crypto.actionDigest action
      agentSubject := actor.subject
      serviceKeyId := credential
      taskId := action.taskId
      policyEpoch := epoch
      positive := h }
    update fun s => { s with reviews := s.reviews.insert reviewId review }
    let _ ← appendAudit world action.tenantId "review.created" actor.subject (reviewPayload review)
    return review
  else throw (.value "policy_epoch must be at least 1")

def receiptKey (actor : Actor) (credential : String) (action : ActionRequest) : List String :=
  [action.tenantId, actor.subject, credential, action.idempotencyKey]

/-- An evaluation without a receipt. -/
def evaluateNew (actor : Actor) (credential : String) (action : ActionRequest) :
    Operation DecisionResponse := do
  let m ← get
  let epoch := m.plane.epoch action.tenantId
  let decided := decideAction world m.plane action
  let audit ← appendAudit world action.tenantId "action.evaluated" actor.subject
    (evaluatedPayload world action decided)
  let recorded := { decided with auditId := audit.auditId }
  let result ← if decided.decision=.escalate then do
      let review ← openReview world actor credential action audit.auditId epoch
      pure { recorded with reviewId := some review.reviewId }
    else pure recorded
  let t ← now world
  let receipt : DecisionReceipt := {
    digest := world.crypto.actionDigest action
    epoch := epoch
    expiresAt := t.later (seconds 300)
    result := result }
  update fun s => { s with
    idempotent := s.idempotent.insert (receiptKey actor credential action) receipt }
  return result

/-- The service credential of an agent that may ask for the action. -/
def agentCredential (s : ControlState) (actor : Actor) (action : ActionRequest) :
    Except ServiceError String := do
  s.require actor .agent action.tenantId
  if (actor.allowedOperations.map fun operations => decide (action.operation∈operations)) =
      some false then
    throw (.authorization "operation is outside the service credential scope")
  match actor.serviceKeyId with
  | some credential => return credential
  | none => throw (.authorization "agent actions require a scoped service credential")

/-- A receipt answers for the same action under the same epoch until it expires. -/
def replayReceipt (cached : DecisionReceipt) (digest : String) (epoch : Nat) :
    Operation DecisionResponse := do
  if cached.digest≠digest then
    throw (.conflict "idempotency key is bound to a different action")
  let t ← now world
  if cached.epoch≠epoch ∨ cached.expiresAt.micros ≤ t.micros then
    throw (.conflict "decision receipt is stale; use a new idempotency key")
  return cached.result

def evaluate (actor : Actor) (action : ActionRequest) : Operation DecisionResponse := do
  let credential ← inspect fun s => agentCredential s actor action
  let m ← get
  match m.plane.idempotent.get? (receiptKey actor credential action) with
  | some cached =>
    replayReceipt world cached (world.crypto.actionDigest action) (m.plane.epoch action.tenantId)
  | none => evaluateNew world actor credential action

def setReview (s : ControlState) (review : Review) : ControlState :=
  { s with reviews := s.reviews.insert review.reviewId review }

/-- The pending review that the actor may resolve. -/
def pendingReview (s : ControlState) (tenant : String) (actor : Actor) (reviewId : String) :
    Except ServiceError Review := do
  s.require actor .reviewer tenant
  match s.reviews.get? reviewId with
  | none => throw (.key "review not found")
  | some review =>
    if review.tenantId≠tenant then throw (.key "review not found")
    if review.status≠.pending then throw (.value "review has already been resolved")
    if s.epochs.get? tenant≠some review.policyEpoch then throw (.value "review policy is stale")
    if review.agentSubject=actor.subject then
      throw (.authorization "action proposer cannot approve their own action")
    return review

def resolveReview (tenant : String) (actor : Actor) (reviewId : String)
    (resolution : ReviewResolution) (reason : String) : Operation Review := do
  let review ← inspect fun s => pendingReview s tenant actor reviewId
  let t ← now world
  if review.expiresAt.micros<t.micros then
    -- the review stays marked although the call raises
    update fun s => setReview s { review with status := .expired }
    throw (.value "review has expired")
  let resolved := review.resolve actor.subject resolution reason
  update fun s => setReview s resolved
  let _ ← appendAudit world tenant "review.resolved" actor.subject (reviewPayload resolved)
  return resolved

/-- `verify_audit_chain`: from a first event on, each event follows the last. -/
def verifyEvents (previous : Option String) (sequence : Nat) : List AuditEvent →
    Except ServiceError Bool
  | [] => .ok true
  | event :: events =>
    if event.previousHash≠previous ∨ event.sequence≠sequence then .ok false
    else match canonical event.body with
      | none => .error (.value "Out of range float values are not JSON compliant")
      | some text =>
        if event.eventHash≠world.crypto.sha256 text then .ok false
        else verifyEvents (some event.eventHash) (sequence+1) events

def verifyAuditChain (s : ControlState) (tenant : String) : Except ServiceError Bool := do
  let events := s.auditsOf tenant
  if !(← verifyEvents world none 1 events) then return false
  match events.getLast? with
  | some last => return s.auditHeads.get? tenant = some (events.length, last.eventHash)
  | none => return (s.auditHeads.get? tenant).isNone

end ControlPlane
end TraceGuard
