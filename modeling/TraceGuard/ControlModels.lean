import TraceGuard.Models
import TraceGuard.Network
import TraceGuard.CompiledAuthority

/-! The control plane's records: policies with their rules, reviews, decision receipts, audit
events, registered tasks, and the state that holds them. -/
namespace TraceGuard

inductive PolicyStatus where
  | draft
  | pendingApproval
  | active
  | rolledBack
  deriving DecidableEq, Repr

inductive ReviewResolution where
  | allow
  | deny
  deriving DecidableEq, Repr

inductive ReviewStatus where
  | pending
  | resolved
  | expired
  deriving DecidableEq, Repr

def Decision.value : Decision → String
  | allow => "ALLOW"
  | block => "BLOCK"
  | escalate => "ESCALATE"
  | rewrite => "REWRITE"

def ReviewResolution.value : ReviewResolution → String
  | allow => "ALLOW"
  | deny => "DENY"

def ReviewStatus.value : ReviewStatus → String
  | pending => "pending"
  | resolved => "resolved"
  | expired => "expired"

structure RuleMatch where
  kind : Option ActionKind := none
  operation : Option String := none
  targetPrefix : Option String := none
  argumentEquals : SortedMap String Json.Doc := .empty
  containsUntrustedInstructions : Option Bool := none

/-- A rewrite rule has a payload, and only allowed HTTP reads of a scope can be cached. -/
structure PolicyRule where
  ruleId : String
  name : String
  priority : Nat
  criteria : RuleMatch
  decision : Decision
  reason : String
  rewrite : Option (SortedMap String Json.Doc) := none
  cacheEligible : Bool := false
  rewrites : decision=.rewrite → ∃ payload, rewrite=some payload ∧ payload.entries≠[]
  eligible : cacheEligible = true → decision=.allow ∧ criteria.kind=some .http ∧
    (criteria.operation=some "GET" ∨ criteria.operation=some "HEAD") ∧
    ∃ scope≠"", criteria.targetPrefix=some scope

structure PolicyDraft where
  name : String
  rules : List PolicyRule
  defaultDecision : Decision := .block
  nonempty : rules≠[]
  distinct : (rules.map PolicyRule.ruleId).Nodup
  withholds : defaultDecision=.block ∨ defaultDecision=.escalate

theorem PolicyRule.unrewritten (decision : Decision) (h : decision≠.rewrite) :
    decision=.rewrite → ∃ payload, (none : Option (SortedMap String Json.Doc))=some payload ∧
      payload.entries≠[] :=
  fun he => absurd he h

/-- A rule for every request. -/
theorem PolicyRule.uncached (decision : Decision) :
    false = true → decision=.allow ∧ ({} : RuleMatch).kind=some .http ∧
      (({} : RuleMatch).operation=some "GET" ∨ ({} : RuleMatch).operation=some "HEAD") ∧
      ∃ scope≠"", ({} : RuleMatch).targetPrefix=some scope := by
  simp

theorem PolicyDraft.blocks : Decision.block=.block ∨ Decision.block=.escalate := Or.inl rfl

structure PolicyVersion where
  policyId : String
  tenantId : String
  version : Nat
  draft : PolicyDraft
  status : PolicyStatus := .draft
  createdBy : String
  approvedBy : Option String := none
  activatedAt : Option Instant := none
  createdAt : Instant

structure DecisionResponse where
  decision : Decision
  reason : String
  policyId : Option String := none
  policyVersion : Option Nat := none
  auditId : String
  reviewId : Option String := none
  rewrittenArguments : Option (SortedMap String Json.Doc) := none
  fromCache : Bool := false
  actionDigest : Option String := none

structure Review where
  reviewId : String
  tenantId : String
  actionId : String
  auditId : String
  expiresAt : Instant
  status : ReviewStatus := .pending
  resolution : Option ReviewResolution := none
  resolvedBy : Option String := none
  reason : Option String := none
  actionDigest : String
  agentSubject : String
  serviceKeyId : String
  taskId : String
  policyEpoch : Nat
  positive : 1≤policyEpoch
  grantNonce : Option String := none
  deriving DecidableEq

structure AuditEvent where
  auditId : String
  tenantId : String
  eventType : String
  actor : String
  payload : Json.Doc
  previousHash : Option String := none
  eventHash : String
  createdAt : Instant
  sequence : Nat

structure DecisionReceipt where
  digest : String
  epoch : Nat
  expiresAt : Instant
  result : DecisionResponse

structure RegisteredTask where
  principal : String
  credential : String
  compiled : CompiledAuthority
  adapterDigest : String
  executionDomain : String
  deriving DecidableEq

structure TaskRegistration where
  taskId : String
  agentSubject : String
  serviceKeyId : String
  executionDomain : String
  authority : TaskAuthority
  toolSchemas : Schemas
  adapterDigest : String

/-! The JSON of the records that audit events hold or hash. -/

/-- An instant as a model writes it. -/
def instantJson (t : Instant) : Json := .str ((Datetime.utc t).text true)

def Review.members (r : Review) : List (String × Json) :=
  [("review_id", .str r.reviewId), ("tenant_id", .str r.tenantId), ("action_id", .str r.actionId),
    ("audit_id", .str r.auditId), ("expires_at", instantJson r.expiresAt), ("status", .str r.status.value),
    ("resolution", optional (r.resolution.map ReviewResolution.value)),
    ("resolved_by", optional r.resolvedBy), ("reason", optional r.reason),
    ("action_digest", .str r.actionDigest), ("agent_subject", .str r.agentSubject),
    ("service_key_id", .str r.serviceKeyId), ("task_id", .str r.taskId),
    ("policy_epoch", .int r.policyEpoch), ("grant_nonce", optional r.grantNonce)]

/-- The dump of an event without its own hash. -/
def AuditEvent.bodyMembers (e : AuditEvent) : List (String × Json) :=
  [("audit_id", .str e.auditId), ("tenant_id", .str e.tenantId), ("event_type", .str e.eventType),
    ("actor", .str e.actor), ("payload", e.payload.val), ("previous_hash", optional e.previousHash),
    ("created_at", instantJson e.createdAt), ("sequence", .int e.sequence),
    ("schema_version", .str "audit-v2")]

def AuditEvent.body (e : AuditEvent) : Json := .obj e.bodyMembers

/-- What the service keeps, by tenant, by id or by the parts of a composite key. -/
structure ControlState where
  policies : SortedMap String (List PolicyVersion) := .empty
  audits : SortedMap String (List AuditEvent) := .empty
  auditHeads : SortedMap String (Nat × String) := .empty
  reviews : SortedMap String Review := .empty
  /-- By tenant, subject, credential and idempotency key. -/
  idempotent : SortedMap (List String) DecisionReceipt := .empty
  epochs : SortedMap String Nat := .empty
  /-- By tenant and task. -/
  executionTasks : SortedMap (List String) RegisteredTask := .empty
  /-- The grants as they were issued, by nonce. -/
  executionIssued : SortedMap String String := .empty
  /-- By tenant and credential. -/
  revokedCredentials : SortedMap (List String) Unit := .empty
  suspendedTenants : SortedMap String Unit := .empty

namespace ControlState
variable (s : ControlState) (tenant : String)

def policiesOf : List PolicyVersion := (s.policies.get? tenant).getD []

def auditsOf : List AuditEvent := (s.audits.get? tenant).getD []

def epoch : Nat := (s.epochs.get? tenant).getD 0

def revoked (credential : String) : Bool := (s.revokedCredentials.get? [tenant, credential]).isSome

def suspended : Bool := (s.suspendedTenants.get? tenant).isSome

/-- `active_policy`: the last policy that is active. -/
def activePolicy : Option PolicyVersion :=
  (s.policiesOf tenant).reverse.find? fun policy => policy.status=.active

end ControlState
end TraceGuard
