import TraceGuard.ControlRuns
import TraceGuard.Isolation

/-! What a tenant sees of the control plane's state, and the reads and writes that stay there. -/
namespace TraceGuard
open Stateful ControlPlane ExecutionAuthority

namespace ControlState

/-- The grant on record is for the tenant. -/
def grantedTo (tenant serialized : String) : Bool :=
  (grantedTask serialized).map Prod.fst = some tenant

/-- The tenant's part of the state. -/
def project (s : ControlState) (t : String) : ControlState where
  policies := s.policies.filter fun k _ => k=t
  audits := s.audits.filter fun k _ => k=t
  auditHeads := s.auditHeads.filter fun k _ => k=t
  reviews := s.reviews.filter fun _ review => review.tenantId=t
  idempotent := s.idempotent.filter fun k _ => k.head? = some t
  epochs := s.epochs.filter fun k _ => k=t
  executionTasks := s.executionTasks.filter fun k _ => k.head? = some t
  executionIssued := s.executionIssued.filter fun _ serialized => grantedTo t serialized
  revokedCredentials := s.revokedCredentials.filter fun k _ => k.head? = some t
  suspendedTenants := s.suspendedTenants.filter fun k _ => k=t

section
variable (s : ControlState) (t : String)

@[simp] theorem policiesOf_project : (s.project t).policiesOf t = s.policiesOf t :=
  congrArg (Option.getD · []) (SortedMap.get?_filter_pos _ (by simp))

@[simp] theorem auditsOf_project : (s.project t).auditsOf t = s.auditsOf t :=
  congrArg (Option.getD · []) (SortedMap.get?_filter_pos _ (by simp))

@[simp] theorem heads_project : (s.project t).auditHeads.get? t = s.auditHeads.get? t :=
  SortedMap.get?_filter_pos _ (by simp)

@[simp] theorem epochs_project : (s.project t).epochs.get? t = s.epochs.get? t :=
  SortedMap.get?_filter_pos _ (by simp)

@[simp] theorem epoch_project : (s.project t).epoch t = s.epoch t :=
  congrArg (Option.getD · 0) (s.epochs_project t)

@[simp] theorem suspended_project : (s.project t).suspended t = s.suspended t :=
  congrArg Option.isSome (SortedMap.get?_filter_pos _ (by simp))

@[simp] theorem revoked_project (credential : String) :
    (s.project t).revoked t credential = s.revoked t credential :=
  congrArg Option.isSome (SortedMap.get?_filter_pos _ (by simp))

@[simp] theorem receipt_project (key : List String) :
    (s.project t).idempotent.get? (t :: key) = s.idempotent.get? (t :: key) :=
  SortedMap.get?_filter_pos _ (by simp)

@[simp] theorem task_project (key : List String) :
    (s.project t).executionTasks.get? (t :: key) = s.executionTasks.get? (t :: key) :=
  SortedMap.get?_filter_pos _ (by simp)

@[simp] theorem activePolicy_project : (s.project t).activePolicy t = s.activePolicy t := by
  rw [activePolicy, policiesOf_project, activePolicy]

@[simp] theorem policy_project (policyId : String) : (s.project t).policy t policyId = s.policy t policyId := by
  rw [policy, policiesOf_project, policy]

@[simp] theorem require_project (actor : Actor) (role : Role) :
    (s.project t).require actor role t = s.require actor role t := by
  unfold require
  cases actor.serviceKeyId <;> simp only [suspended_project, revoked_project]

theorem review_project (reviewId : String) :
    (s.project t).reviews.get? reviewId =
      (s.reviews.get? reviewId).filter fun review => decide (review.tenantId=t) :=
  SortedMap.get?_filter _ _ _

end

/-- A write at `s` that stays in the tenant's part. -/
structure Confined (t : String) (f : ControlState → ControlState) (s : ControlState) : Prop where
  same : f (s.project t) = (f s).project t
  unseen : ∀ u, u≠t → (f s).project u = s.project u

theorem ext {s s' : ControlState} (policies : s.policies=s'.policies) (audits : s.audits=s'.audits)
    (heads : s.auditHeads=s'.auditHeads) (reviews : s.reviews=s'.reviews)
    (receipts : s.idempotent=s'.idempotent) (epochs : s.epochs=s'.epochs)
    (tasks : s.executionTasks=s'.executionTasks) (issued : s.executionIssued=s'.executionIssued)
    (revoked : s.revokedCredentials=s'.revokedCredentials)
    (suspended : s.suspendedTenants=s'.suspendedTenants) : s=s' := by
  cases s
  cases s'
  simp_all only

theorem Confined.comp {t : String} {f g : ControlState → ControlState} {s : ControlState}
    (hf : Confined t f s) (hg : Confined t g (f s)) : Confined t (fun s => g (f s)) s where
  same := (congrArg g hf.same).trans hg.same
  unseen u hu := (hg.unseen u hu).trans (hf.unseen u hu)

/-- A map by tenants with a new entry for the tenant. -/
theorem filter_tenant {α : Type} (m : SortedMap String α) (t : String) (v : α) :
    (m.insert t v).filter (fun k _ => decide (k=t)) = (m.filter fun k _ => decide (k=t)).insert t v ∧
      ∀ u, u≠t → (m.insert t v).filter (fun k _ => decide (k=u)) = m.filter fun k _ => decide (k=u) :=
  ⟨SortedMap.filter_insert_pos _ (decide_eq_true rfl), fun _ hu =>
    SortedMap.filter_insert_neg _ (decide_eq_false hu.symm) fun _ _ => decide_eq_false hu.symm⟩

/-- A map by tenants and names with a new entry for the tenant. -/
theorem filter_head {α : Type} (m : SortedMap (List String) α) (t : String) (key : List String) (v : α) :
    (m.insert (t :: key) v).filter (fun k _ => decide (k.head? = some t)) =
        (m.filter fun k _ => decide (k.head? = some t)).insert (t :: key) v ∧
      ∀ u, u≠t → (m.insert (t :: key) v).filter (fun k _ => decide (k.head? = some u)) =
        m.filter fun k _ => decide (k.head? = some u) := by
  have hother {u : String} (hu : u≠t) : decide ((t :: key).head? = some u) = false :=
    decide_eq_false fun h => hu (Option.some.inj h).symm
  exact ⟨SortedMap.filter_insert_pos _ (decide_eq_true rfl), fun _ hu =>
    SortedMap.filter_insert_neg _ (hother hu) fun _ _ => hother hu⟩

variable (s : ControlState) (t : String)

theorem confined_setPolicies (f : List PolicyVersion → List PolicyVersion) :
    Confined t (fun s => s.setPolicies t (f (s.policiesOf t))) s := by
  obtain ⟨hsame, hunseen⟩ := filter_tenant s.policies t (f (s.policiesOf t))
  refine ⟨ext ?_ rfl rfl rfl rfl rfl rfl rfl rfl rfl, fun u hu =>
    ext (hunseen u hu) rfl rfl rfl rfl rfl rfl rfl rfl rfl⟩
  show (s.project t).policies.insert t (f ((s.project t).policiesOf t)) = _
  rw [policiesOf_project]
  exact hsame.symm

theorem confined_advance : Confined t (·.advance t) s := by
  obtain ⟨hsame, hunseen⟩ := filter_tenant s.epochs t (s.epoch t+1)
  refine ⟨ext rfl rfl rfl rfl rfl ?_ rfl rfl rfl rfl, fun u hu =>
    ext rfl rfl rfl rfl rfl (hunseen u hu) rfl rfl rfl rfl⟩
  show (s.project t).epochs.insert t ((s.project t).epoch t+1) = _
  rw [epoch_project]
  exact hsame.symm

theorem confined_record {event : AuditEvent} (ht : event.tenantId=t) :
    Confined t (ControlState.record · event) s := by
  subst ht
  obtain ⟨hsame, hunseen⟩ := filter_tenant s.audits event.tenantId (s.auditsOf event.tenantId++[event])
  obtain ⟨hheads, hothers⟩ := filter_tenant s.auditHeads event.tenantId (event.sequence, event.eventHash)
  refine ⟨ext rfl ?_ hheads.symm rfl rfl rfl rfl rfl rfl rfl, fun u hu =>
    ext rfl (hunseen u hu) (hothers u hu) rfl rfl rfl rfl rfl rfl rfl⟩
  show (s.project event.tenantId).audits.insert _ ((s.project event.tenantId).auditsOf _++[event]) = _
  rw [auditsOf_project]
  exact hsame.symm

theorem confined_revoke (credentialId : String) : Confined t (fun s => { s with
    revokedCredentials := s.revokedCredentials.insert [t, credentialId] () }) s := by
  obtain ⟨hsame, hunseen⟩ := filter_head s.revokedCredentials t [credentialId] ()
  exact ⟨ext rfl rfl rfl rfl rfl rfl rfl rfl hsame.symm rfl, fun u hu =>
    ext rfl rfl rfl rfl rfl rfl rfl rfl (hunseen u hu) rfl⟩

theorem confined_suspend (suspended : Bool) : Confined t (fun s => { s with
    suspendedTenants := if suspended then s.suspendedTenants.insert t ()
      else s.suspendedTenants.erase t }) s := by
  cases suspended with
  | true =>
    obtain ⟨hsame, hunseen⟩ := filter_tenant s.suspendedTenants t ()
    exact ⟨ext rfl rfl rfl rfl rfl rfl rfl rfl rfl hsame.symm, fun u hu =>
      ext rfl rfl rfl rfl rfl rfl rfl rfl rfl (hunseen u hu)⟩
  | false =>
    have hsame : (s.suspendedTenants.filter fun k _ => k=t).erase t =
        (s.suspendedTenants.erase t).filter fun k _ => k=t := SortedMap.filter_filter _ _ _
    have hunseen {u : String} (hu : u≠t) : ((s.suspendedTenants.erase t).filter fun k _ => k=u) =
        s.suspendedTenants.filter fun k _ => k=u := by
      refine SortedMap.filter_absorb _ fun k _ hk => ?_
      rw [of_decide_eq_true hk]
      exact decide_eq_true hu
    exact ⟨ext rfl rfl rfl rfl rfl rfl rfl rfl rfl hsame, fun u hu =>
      ext rfl rfl rfl rfl rfl rfl rfl rfl rfl (hunseen hu)⟩

/-- A review of the tenant in the place of none or of one of the tenant. -/
theorem filter_review {review : Review} (ht : review.tenantId=t)
    (hold : ∀ r, s.reviews.get? review.reviewId = some r → r.tenantId=t) :
    (s.reviews.insert review.reviewId review).filter (fun _ r => decide (r.tenantId=t)) =
        (s.reviews.filter fun _ r => decide (r.tenantId=t)).insert review.reviewId review ∧
      ∀ u, u≠t → (s.reviews.insert review.reviewId review).filter (fun _ r => decide (r.tenantId=u)) =
        s.reviews.filter fun _ r => decide (r.tenantId=u) :=
  ⟨SortedMap.filter_insert_pos _ (decide_eq_true ht), fun _ hu =>
    SortedMap.filter_insert_neg _ (decide_eq_false (ht ▸ hu.symm)) fun r hr =>
      decide_eq_false (hold r hr ▸ hu.symm)⟩

theorem confined_review {review : Review} (ht : review.tenantId=t)
    (hold : ∀ r, s.reviews.get? review.reviewId = some r → r.tenantId=t) :
    Confined t (setReview · review) s := by
  obtain ⟨hsame, hunseen⟩ := filter_review s t ht hold
  exact ⟨ext rfl rfl rfl hsame.symm rfl rfl rfl rfl rfl rfl, fun u hu =>
    ext rfl rfl rfl (hunseen u hu) rfl rfl rfl rfl rfl rfl⟩

theorem confined_receipt (key : List String) (receipt : DecisionReceipt) : Confined t (fun s => { s with
    idempotent := s.idempotent.insert (t :: key) receipt }) s := by
  obtain ⟨hsame, hunseen⟩ := filter_head s.idempotent t key receipt
  exact ⟨ext rfl rfl rfl rfl hsame.symm rfl rfl rfl rfl rfl, fun u hu =>
    ext rfl rfl rfl rfl (hunseen u hu) rfl rfl rfl rfl rfl⟩

theorem confined_task (key : List String) (task : RegisteredTask) : Confined t (fun s => { s with
    executionTasks := s.executionTasks.insert (t :: key) task }) s := by
  obtain ⟨hsame, hunseen⟩ := filter_head s.executionTasks t key task
  exact ⟨ext rfl rfl rfl rfl rfl rfl hsame.symm rfl rfl rfl, fun u hu =>
    ext rfl rfl rfl rfl rfl rfl (hunseen u hu) rfl rfl rfl⟩

theorem confined_bindDomain (taskId : String) (task : RegisteredTask) (domain : String) :
    Confined t (bindDomain · t taskId task domain) s := by
  obtain ⟨hsame, hunseen⟩ := filter_head s.executionTasks t [taskId] { task with executionDomain := domain }
  let kept (_ text : String) : Bool := grantedTask text≠some (t, taskId)
  have hdropped : (s.executionIssued.filter fun _ text => grantedTo t text).filter kept =
      (s.executionIssued.filter kept).filter fun _ text => grantedTo t text :=
    SortedMap.filter_filter _ _ _
  have hothers {u : String} (hu : u≠t) :
      ((s.executionIssued.filter kept).filter fun _ text => grantedTo u text) =
        s.executionIssued.filter fun _ text => grantedTo u text := by
    refine SortedMap.filter_absorb _ fun _ text hk => decide_eq_true fun hbound => hu ?_
    rw [grantedTo, hbound] at hk
    exact (Option.some.inj (of_decide_eq_true hk)).symm
  exact ⟨ext rfl rfl rfl rfl rfl rfl hsame.symm hdropped rfl rfl, fun u hu =>
    ext rfl rfl rfl rfl rfl rfl (hunseen u hu) (hothers hu) rfl rfl⟩

/-- A grant of the tenant under a nonce that nobody else has. -/
theorem confined_issued {grant : ExecutionGrant} (ht : grantedTo t grant.dumpJson = true)
    (hold : s.executionIssued.get? grant.nonce = none) :
    Confined t (recordGrant · grant none) s := by
  have hother {u : String} (hu : u≠t) : grantedTo u grant.dumpJson = false := by
    refine decide_eq_false fun h => hu ?_
    rw [of_decide_eq_true ht] at h
    exact (Option.some.inj h).symm
  have hsame : ((s.executionIssued.insert grant.nonce grant.dumpJson).filter fun _ text =>
      grantedTo t text) = (s.executionIssued.filter fun _ text => grantedTo t text).insert grant.nonce
        grant.dumpJson := SortedMap.filter_insert_pos _ ht
  have hunseen {u : String} (hu : u≠t) :
      ((s.executionIssued.insert grant.nonce grant.dumpJson).filter fun _ text => grantedTo u text) =
        s.executionIssued.filter fun _ text => grantedTo u text :=
    SortedMap.filter_insert_neg _ (hother hu) fun _ hget => by
      rw [hold] at hget
      cases hget
  exact ⟨ext rfl rfl rfl rfl rfl rfl rfl hsame.symm rfl rfl, fun u hu =>
    ext rfl rfl rfl rfl rfl rfl rfl (hunseen hu) rfl rfl⟩

theorem confined_recordGrant {grant : ExecutionGrant} {review : Option Review}
    (ht : grantedTo t grant.dumpJson = true) (hold : s.executionIssued.get? grant.nonce = none)
    (hreview : ∀ r∈review, r.tenantId=t ∧ s.reviews.get? r.reviewId = some r) :
    Confined t (recordGrant · grant review) s := by
  have hissued := confined_issued s t ht hold
  cases review with
  | none => exact hissued
  | some r =>
    obtain ⟨hr, hfound⟩ := hreview r rfl
    have hmarked : Confined t (setReview · { r with grantNonce := some grant.nonce })
        (recordGrant s grant none) :=
      confined_review _ _ hr fun r' hr' => Option.some.inj (hfound.symm.trans hr') ▸ hr
    exact hissued.comp hmarked

end ControlState
end TraceGuard
