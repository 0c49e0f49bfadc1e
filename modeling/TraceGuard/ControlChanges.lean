import TraceGuard.ExecutionAuthority
import TraceGuard.Traces

/-! The elementary changes of the control plane. Every operation, also one that raises, makes a
run of them, and each carries what its operation has checked. -/
namespace TraceGuard
open ControlPlane ExecutionAuthority

namespace Machine
variable (world : World) (m : Machine)

/-- The next event with the next identifier and clock reading. -/
def event (tenant eventType actor : String) (payload : Arguments) : AuditEvent :=
  nextEvent world m.plane tenant eventType actor payload (world.uuid m.identifiers)
    (world.clock m.readings)

def recorded (tenant eventType actor : String) (payload : Arguments) : Machine :=
  ⟨ControlState.record m.plane (m.event world tenant eventType actor payload), m.readings+1,
    m.identifiers+1⟩

/-- The next version of a tenant's policy. -/
def drafted (tenant subject : String) (draft : PolicyDraft) : PolicyVersion where
  policyId := world.uuid m.identifiers
  tenantId := tenant
  version := (m.plane.policiesOf tenant).length+1
  draft := draft
  createdBy := subject
  createdAt := world.clock m.readings

end Machine

namespace ControlState
variable (s : ControlState)

def revoke (tenant credentialId : String) : ControlState :=
  { s with revokedCredentials := s.revokedCredentials.insert [tenant, credentialId] () }.advance tenant

def suspend (tenant : String) (suspended : Bool) : ControlState :=
  { s with
    suspendedTenants := if suspended then s.suspendedTenants.insert tenant ()
      else s.suspendedTenants.erase tenant }.advance tenant

def submit (tenant policyId : String) : ControlState :=
  s.setPolicies tenant (changePolicy policyId (fun p => { p with status := .pendingApproval })
    (s.policiesOf tenant))

end ControlState

/-- What a change was. -/
inductive Mark where
  | drew
  | recorded (event : AuditEvent)
  | revoked (actor : Actor) (tenant credentialId : String)
  | suspension (actor : Actor) (tenant : String) (suspended : Bool)
  | drafted (actor : Actor) (policy : PolicyVersion)
  | submitted (actor : Actor) (tenant policyId : String)
  | activated (actor : Actor) (tenant policyId : String) (restored : Bool)
  | opened (review : Review)
  | received (key : List String) (receipt : DecisionReceipt)
  | expired (review : Review)
  | resolved (actor : Actor) (review : Review) (resolution : ReviewResolution)
  | registered (actor : Actor) (tenant taskId : String) (task : RegisteredTask)
  | bound (actor : Actor) (tenant taskId domain : String)
  | granted (actor : Actor) (action : ActionRequest) (grant : ExecutionGrant) (review : Option Review)

/-- The grant of an unsigned draft. -/
def ExecutionAuthority.signed (self : ExecutionAuthority) (world : World) (draft : ExecutionGrant) :
    ExecutionGrant :=
  { draft with signature := world.crypto.sign self.signer (Json.text Json.compact draft.unsigned) }

/-- Why a grant is permitted: the policy allows the action, or a review does. -/
def Permitted (world : World) (m : Machine) (actor : Actor) (action : ActionRequest)
    (decision : DecisionResponse) (reviewId : Option String) : Option Review → Prop
  | none => decision.decision=.allow
  | some review => decision.decision=.escalate ∧ ∃ k < m.readings,
      grantingReview world m.plane actor action decision reviewId (world.clock k) = .ok review

inductive Change (world : World) : Machine → Mark → Machine → Prop
  | drew {m : Machine} (readings identifiers : Nat) :
      Change world m .drew ⟨m.plane, m.readings+readings, m.identifiers+identifiers⟩
  | recorded {m : Machine} (tenant eventType actor : String) (payload : Arguments) :
      Change world m (.recorded (m.event world tenant eventType actor payload))
        (m.recorded world tenant eventType actor payload)
  | revoked {m : Machine} {actor : Actor} {tenant credentialId : String}
      (role : m.plane.require actor .admin tenant = .ok ()) :
      Change world m (.revoked actor tenant credentialId)
        { m with plane := m.plane.revoke tenant credentialId }
  | suspension {m : Machine} {actor : Actor} {tenant : String} {suspended : Bool}
      (role : m.plane.require actor .admin tenant = .ok ()) :
      Change world m (.suspension actor tenant suspended)
        { m with plane := m.plane.suspend tenant suspended }
  | drafted {m : Machine} {actor : Actor} {tenant : String} {draft : PolicyDraft}
      (role : m.plane.require actor .admin tenant = .ok ()) :
      Change world m (.drafted actor (m.drafted world tenant actor.subject draft))
        ⟨m.plane.setPolicies tenant
          (m.plane.policiesOf tenant++[m.drafted world tenant actor.subject draft]),
          m.readings+1, m.identifiers+1⟩
  | submitted {m : Machine} {actor : Actor} {tenant policyId : String} {policy : PolicyVersion}
      (role : m.plane.require actor .admin tenant = .ok ())
      (found : m.plane.policy tenant policyId = .ok policy)
      (author : policy.createdBy=actor.subject) (status : policy.status=.draft) :
      Change world m (.submitted actor tenant policyId)
        { m with plane := m.plane.submit tenant policyId }
  | approved {m : Machine} {actor : Actor} {tenant policyId : String} {policy : PolicyVersion}
      (role : m.plane.require actor .approver tenant = .ok ())
      (found : m.plane.policy tenant policyId = .ok policy)
      (status : policy.status=.pendingApproval) (author : policy.createdBy≠actor.subject) :
      Change world m (.activated actor tenant policyId false)
        ⟨m.plane.activatePolicy tenant actor.subject policyId (world.clock m.readings),
          m.readings+1, m.identifiers⟩
  | restored {m : Machine} {actor : Actor} {tenant policyId : String} {policy : PolicyVersion}
      (role : m.plane.require actor .approver tenant = .ok ())
      (found : m.plane.policy tenant policyId = .ok policy)
      (status : policy.status=.rolledBack) :
      Change world m (.activated actor tenant policyId true)
        ⟨m.plane.activatePolicy tenant actor.subject policyId (world.clock m.readings),
          m.readings+1, m.identifiers⟩
  | opened {m : Machine} {review : Review} (fresh : review.reviewId = world.uuid m.identifiers)
      (pending : review.status=.pending) (unused : review.grantNonce=none)
      (epoch : review.policyEpoch = m.plane.epoch review.tenantId) :
      Change world m (.opened review)
        ⟨setReview m.plane review, m.readings+1, m.identifiers+1⟩
  | received {m : Machine} {key : List String} {receipt : DecisionReceipt}
      (absent : m.plane.idempotent.get? key = none)
      (lifetime : receipt.expiresAt = (world.clock m.readings).later (seconds 300))
      (linked : ∀ reviewId, receipt.result.reviewId = some reviewId →
        ∃ review, m.plane.reviews.get? reviewId = some review ∧ key.head? = some review.tenantId) :
      Change world m (.received key receipt)
        ⟨{ m.plane with idempotent := m.plane.idempotent.insert key receipt }, m.readings+1,
          m.identifiers⟩
  | expired {m : Machine} {reviewId : String} {review : Review}
      (found : m.plane.reviews.get? reviewId = some review) (pending : review.status=.pending) :
      Change world m (.expired review)
        ⟨setReview m.plane { review with status := .expired }, m.readings+1, m.identifiers⟩
  | resolved {m : Machine} {actor : Actor} {tenant reviewId : String} {review : Review}
      {resolution : ReviewResolution} {reason : String}
      (pending : pendingReview m.plane tenant actor reviewId = .ok review)
      (timely : (world.clock m.readings).micros ≤ review.expiresAt.micros) :
      Change world m (.resolved actor review resolution)
        ⟨setReview m.plane (review.resolve actor.subject resolution reason), m.readings+1,
          m.identifiers⟩
  | registered {m : Machine} {actor : Actor} {tenant taskId : String} {task : RegisteredTask}
      (role : m.plane.require actor .admin tenant = .ok ())
      (absent : m.plane.executionTasks.get? [tenant, taskId] = none) :
      Change world m (.registered actor tenant taskId task)
        { m with plane := { m.plane with
          executionTasks := m.plane.executionTasks.insert [tenant, taskId] task } }
  | bound {m : Machine} {actor : Actor} {tenant taskId domain : String} {task : RegisteredTask}
      (role : m.plane.require actor .admin tenant = .ok ())
      (found : m.plane.executionTasks.get? [tenant, taskId] = some task)
      (legacy : task.executionDomain = "") (named : domain≠"") :
      Change world m (.bound actor tenant taskId domain)
        { m with plane := bindDomain m.plane tenant taskId task domain }
  | granted {m : Machine} {self : ExecutionAuthority} {actor : Actor} {action : ActionRequest}
      {audience : String} {decision : DecisionResponse} {reviewId : Option String}
      {review : Option Review} {task : RegisteredTask} {draft : ExecutionGrant}
      (found : m.plane.executionTasks.get? [action.tenantId, action.taskId] = some task)
      (principal : actor.subject = task.principal ∧ actor.serviceKeyId = some task.credential)
      (domain : task.executionDomain≠"")
      (permitted : Permitted world m actor action decision reviewId review)
      (made : draftGrant world m.plane actor action audience task (world.uuid m.identifiers)
        (world.clock m.readings) (world.clock (m.readings+1)) = .ok draft) :
      Change world m (.granted actor action (self.signed world draft) review)
        ⟨recordGrant m.plane (self.signed world draft) review, m.readings+2, m.identifiers+1⟩

theorem recordGrant_eq (s : ControlState) (grant : ExecutionGrant) (review : Option Review) :
    recordGrant s grant review = { s with
      executionIssued := s.executionIssued.insert grant.nonce grant.dumpJson
      reviews := match review with
        | some r => s.reviews.insert r.reviewId { r with grantNonce := some grant.nonce }
        | none => s.reviews } := by
  cases review <;> rfl

/-- Changes that add events, reviews or receipts only. -/
def Mark.minor : Mark → Bool
  | drew | recorded _ | opened _ | received _ _ => true
  | _ => false

/-- What tenants may do is the same in both states. -/
structure SameAuthority (s s' : ControlState) : Prop where
  policies : s'.policies = s.policies
  epochs : s'.epochs = s.epochs
  tasks : s'.executionTasks = s.executionTasks
  issued : s'.executionIssued = s.executionIssued
  revoked : s'.revokedCredentials = s.revokedCredentials
  suspended : s'.suspendedTenants = s.suspendedTenants

theorem SameAuthority.refl (s : ControlState) : SameAuthority s s := ⟨rfl, rfl, rfl, rfl, rfl, rfl⟩

theorem SameAuthority.trans {s t u : ControlState} (h : SameAuthority s t) (h' : SameAuthority t u) :
    SameAuthority s u :=
  ⟨h'.policies.trans h.policies, h'.epochs.trans h.epochs, h'.tasks.trans h.tasks,
    h'.issued.trans h.issued, h'.revoked.trans h.revoked, h'.suspended.trans h.suspended⟩

variable {world : World} {m m' : Machine}

theorem Change.minor {mark : Mark} (h : Change world m mark m') (hm : mark.minor = true) :
    SameAuthority m.plane m'.plane := by
  cases h with
  | drew | recorded | opened | received => exact ⟨rfl, rfl, rfl, rfl, rfl, rfl⟩
  | _ => cases hm

theorem minor_run {marks : List Mark} (h : Traces.Run (Change world) m marks m')
    (hm : ∀ mark∈marks, mark.minor = true) : SameAuthority m.plane m'.plane := by
  induction h with
  | nil => exact .refl _
  | snoc past last ih =>
    exact (ih fun mark hmem => hm mark (List.mem_append_left _ hmem)).trans
      (last.minor (hm _ (by simp)))

theorem Change.identifiers {mark : Mark} (h : Change world m mark m') :
    m.identifiers ≤ m'.identifiers := by
  cases h with
  | drew => exact Nat.le_add_right _ _
  | recorded | drafted | opened | granted => exact Nat.le_succ _
  | _ => exact le_rfl

theorem Change.readings {mark : Mark} (h : Change world m mark m') : m.readings ≤ m'.readings := by
  cases h with
  | drew => exact Nat.le_add_right _ _
  | recorded | drafted | approved | restored | opened | received | expired | resolved =>
    exact Nat.le_succ _
  | granted => exact Nat.le_add_right _ 2
  | _ => exact le_rfl

theorem readings_run {marks : List Mark} (h : Traces.Run (Change world) m marks m') :
    m.readings ≤ m'.readings := by
  induction h with
  | nil => exact le_rfl
  | snoc past last ih => exact ih.trans last.readings

theorem identifiers_run {marks : List Mark} (h : Traces.Run (Change world) m marks m') :
    m.identifiers ≤ m'.identifiers := by
  induction h with
  | nil => exact le_rfl
  | snoc past last ih => exact ih.trans last.identifiers

end TraceGuard
