import TraceGuard.ReviewOrigins
import TraceGuard.TenantRecords

/-! Eras of identifiers. The reviews, receipts and grants of a state that was empty of them bear
identifiers drawn since. -/
namespace TraceGuard
open Stateful Traces ControlPlane ExecutionAuthority ControlState

variable {world : World} {m m' : Machine} {start : Nat}

/-- The identifier has been drawn, and not before the start. -/
def Machine.Drawn (m : Machine) (world : World) (start : Nat) (id : String) : Prop :=
  ∃ k, start ≤ k ∧ k< m.identifiers ∧ id = world.uuid k

/-- Reviews, receipts and grants are younger than the start. -/
structure Since (world : World) (start : Nat) (m : Machine) : Prop where
  begun : start ≤ m.identifiers
  reviews : ∀ key review, m.plane.reviews.get? key = some review →
    review.reviewId=key ∧ m.Drawn world start key
  receipts : ∀ key receipt, m.plane.idempotent.get? key = some receipt →
    m.Drawn world start receipt.result.auditId
  grants : ∀ nonce text, m.plane.executionIssued.get? nonce = some text → m.Drawn world start nonce

theorem Machine.Drawn.later {id : String} (h : m.Drawn world start id)
    (hle : m.identifiers ≤ m'.identifiers) : m'.Drawn world start id := by
  obtain ⟨k, hstart, hk, hid⟩ := h
  exact ⟨k, hstart, hk.trans_le hle, hid⟩

/-- What was drawn before the start is none of the state's. -/
theorem Machine.Drawn.ne {id id' : String} (h : m.Drawn world start id) {k : Nat} (hk : k<start)
    (hid : id' = world.uuid k) : id≠id' := by
  rintro rfl
  obtain ⟨j, hj, _, hdrawn⟩ := h
  have := world.fresh (hdrawn.symm.trans hid)
  omega

theorem Since.keyed (h : Since world start m) : Keyed world m := fun key review hget => by
  obtain ⟨hid, k, _, hk, hkey⟩ := h.reviews key review hget
  exact ⟨hid, k, hk, hkey⟩

/-- A change that writes no receipt. -/
theorem Since.change {mark : Mark} (h : Since world start m) (hchange : Change world m mark m')
    (hm : mark.passive = true) : Since world start m' := by
  have hlater := hchange.identifiers
  have hbegun := h.begun
  have hreceipts : m'.plane.idempotent=m.plane.idempotent := by
    cases hchange with
    | received => cases hm
    | granted => rw [recordGrant_eq]
    | _ => rfl
  refine ⟨hbegun.trans hlater, fun key review hget => ?_, fun key receipt hget =>
    (h.receipts key receipt (hreceipts ▸ hget)).later hlater, fun nonce text hget => ?_⟩
  · have hold : ∀ review, m.plane.reviews.get? key = some review →
        review.reviewId=key ∧ m'.Drawn world start key := fun r hr => by
      obtain ⟨hid, hdrawn⟩ := h.reviews key r hr
      exact ⟨hid, hdrawn.later hlater⟩
    rcases hchange.review_cases h.keyed with hreviews | ⟨opened, _, hfresh, _, hinsert, hnext⟩ |
      ⟨r, r', hr, hinsert, _, _⟩
    · exact hold review (hreviews ▸ hget)
    · rw [hinsert, SortedMap.get?_insert] at hget
      split at hget
      · rename_i hkey
        cases hget
        exact ⟨hkey.symm, m.identifiers, hbegun, by omega, hkey.trans hfresh⟩
      · exact hold review hget
    · rw [hinsert, SortedMap.get?_insert] at hget
      split at hget
      · rename_i hkey
        cases hget
        exact ⟨hkey.symm, (hold r (hkey ▸ hr)).2⟩
      · exact hold review hget
  · cases hchange with
    | bound =>
      replace hget : (m.plane.executionIssued.filter _).get? nonce = some text := hget
      rw [SortedMap.get?_filter] at hget
      exact h.grants nonce text (Option.filter_eq_some_iff.mp hget).1
    | @granted self actor action audience decision reviewId review task draft _ _ _ _ made =>
      have hnonce : (self.signed world draft).nonce = world.uuid m.identifiers :=
        show draft.nonce=_ from draftGrant_nonce made
      rw [recordGrant_eq, SortedMap.get?_insert] at hget
      split at hget
      · rename_i hkey
        exact ⟨m.identifiers, hbegun, Nat.lt_succ_self _, hkey.trans hnonce⟩
      · exact (h.grants nonce text hget).later hlater
    | _ => exact (h.grants nonce text hget).later hlater

theorem Since.run {marks : List Mark} (h : Since world start m) (hrun : Run (Change world) m marks m')
    (hm : ∀ mark∈marks, mark.passive = true) : Since world start m' :=
  passive_run (fun _ _ _ h hchange hm => h.change hchange hm) h hrun hm

/-- A new receipt of a new decision. -/
theorem Since.received {key : List String} {receipt : DecisionReceipt} (h : Since world start m)
    (hdrawn : m.Drawn world start receipt.result.auditId) (readings : Nat) :
    Since world start ⟨{ m.plane with idempotent := m.plane.idempotent.insert key receipt }, readings,
      m.identifiers⟩ := by
  refine ⟨h.begun, h.reviews, fun key' receipt' hget => ?_, h.grants⟩
  rw [SortedMap.get?_insert] at hget
  split at hget
  · cases hget
    exact hdrawn
  · exact h.receipts key' receipt' hget

/-- A new decision is recorded under an identifier that is drawn for it. -/
theorem Since.evaluateNew {actor : Actor} {credential : String} {action : ActionRequest}
    {r : Except ServiceError DecisionResponse} (h : Since world start m)
    (hnew : outcome (ControlPlane.evaluateNew world actor credential action) m = (r, m')) :
    Since world start m' ∧ ∀ decision, r = .ok decision → m'.Drawn world start decision.auditId := by
  unfold ControlPlane.evaluateNew at hnew
  rw [get_bind, appendAudit_bind] at hnew
  have hfirst : Change world m (.recorded _) _ := .recorded action.tenantId "action.evaluated"
    actor.subject (evaluatedPayload world action (decideAction world m.plane action))
  have hrecorded := h.change hfirst rfl
  have hdrawn : (m.recorded world action.tenantId "action.evaluated" actor.subject
      (evaluatedPayload world action (decideAction world m.plane action))).Drawn world start
      (m.event world action.tenantId "action.evaluated" actor.subject
        (evaluatedPayload world action (decideAction world m.plane action))).auditId :=
    ⟨m.identifiers, h.begun, Nat.lt_succ_self _, rfl⟩
  by_cases hd : (decideAction world m.plane action).decision=.escalate
  · rw [if_pos hd] at hnew
    rcases bind_cases hnew with ⟨e, hopen, rfl⟩ | ⟨review, u, hopen, hnew⟩
    · refine ⟨?_, fun _ he => (by cases he)⟩
      rcases openReview_changes hopen rfl with ⟨_, _, hrun⟩ | ⟨_, _, hok, _⟩
      · exact hrecorded.run hrun (by simp [Mark.passive])
      · cases hok
    · rcases openReview_changes hopen rfl with ⟨_, hno, _⟩ | ⟨_, _, _, hrun, _⟩
      · cases hno
      · have hopened := hrecorded.run hrun (by simp [Mark.passive])
        have hlater := hdrawn.later (identifiers_run hrun)
        obtain ⟨hr, rfl⟩ := Prod.mk.inj hnew
        exact ⟨hopened.received hlater _, fun decision hok => by cases hr.trans hok; exact hlater⟩
  · rw [if_neg hd] at hnew
    obtain ⟨hr, rfl⟩ := Prod.mk.inj hnew
    exact ⟨hrecorded.received hdrawn _, fun decision hok => by cases hr.trans hok; exact hdrawn⟩

theorem Since.drawn (h : Since world start m) (hplane : m'.plane=m.plane)
    (hlater : m.identifiers ≤ m'.identifiers) : Since world start m' := by
  refine ⟨h.begun.trans hlater, fun key review hget => ?_, fun key receipt hget =>
    (h.receipts key receipt (hplane ▸ hget)).later hlater, fun nonce text hget =>
    (h.grants nonce text (hplane ▸ hget)).later hlater⟩
  obtain ⟨hid, hdrawn⟩ := h.reviews key review (hplane ▸ hget)
  exact ⟨hid, hdrawn.later hlater⟩

/-- Every decision that is returned was recorded since the start. -/
theorem Since.evaluate {actor : Actor} {action : ActionRequest}
    {r : Except ServiceError DecisionResponse} (h : Since world start m)
    (hevaluate : outcome (ControlPlane.evaluate world actor action) m = (r, m')) :
    Since world start m' ∧ ∀ decision, r = .ok decision → m'.Drawn world start decision.auditId := by
  unfold ControlPlane.evaluate at hevaluate
  rcases inspect_bind hevaluate with ⟨e, _, rfl, rfl⟩ | ⟨credential, _, hevaluate⟩
  · exact ⟨h, fun _ he => (by cases he)⟩
  · rw [get_bind] at hevaluate
    cases hkey : m.plane.idempotent.get? (receiptKey actor credential action) with
    | none =>
      rw [hkey] at hevaluate
      exact h.evaluateNew hevaluate
    | some cached =>
      rw [hkey] at hevaluate
      obtain ⟨_, _, hrun⟩ := replayReceipt_changes hevaluate
      obtain ⟨hplane, hreplay⟩ := replayReceipt_cases hevaluate
      have hlater := identifiers_run hrun
      refine ⟨h.drawn hplane hlater, fun decision hok => ?_⟩
      rcases hreplay with ⟨hreturned, _⟩ | ⟨⟨_, hraised⟩, _⟩
      · cases hreturned.symm.trans hok
        exact (h.receipts _ cached hkey).later hlater
      · cases hraised.symm.trans hok

theorem since_records : RecordLaw world (Since world start) where
  change _ _ _ h hchange hm := h.change hchange hm
  evaluate _ _ _ _ _ h hevaluate := (h.evaluate hevaluate).1
  task _ _ _ _ _ h _ := ⟨h.begun, h.reviews, h.receipts, h.grants⟩

/-- An issued grant has a nonce of its era. -/
theorem Since.issued {authority : ExecutionAuthority} {actor : Actor} {action : ActionRequest}
    {audience : String} {reviewId : Option String} {grant : ExecutionGrant} (h : Since world start m)
    (hissued : Issued world authority actor action audience reviewId m grant m') :
    m'.Drawn world start grant.nonce := by
  obtain ⟨_, _, evaluated, _, _, draft, _, evaluation, _, made, rfl, rfl⟩ := hissued
  have hevaluated := (h.evaluate evaluation).1
  have hnonce : draft.nonce = world.uuid evaluated.identifiers := draftGrant_nonce made
  refine ⟨evaluated.identifiers, hevaluated.begun, ?_, hnonce⟩
  show evaluated.identifiers < evaluated.identifiers+1+1
  omega

/-- A review that supports an issuance is of the era. -/
theorem Since.supported {e : ControlEvent} {key : String} {actor : Actor} {action : ActionRequest}
    {grant : ExecutionGrant} (h : Since world start m) (hstep : ControlStep world m e m')
    (hon : GrantedOn world m e key actor action grant) : ∃ u : Machine, u.Drawn world start key := by
  obtain @⟨authority, _, _, audience, reviewId, _, decision, evaluated, hevaluation, hescalated⟩ := hon
  obtain ⟨_, decision', evaluated', _, review, _, _, evaluation, permitted, _⟩ :=
    (issued_of_step hstep).some
  rw [evaluation] at hevaluation
  obtain ⟨hd, rfl⟩ := Prod.mk.inj hevaluation
  cases hd
  cases review with
  | none =>
    rw [show decision.decision=.allow from permitted] at hescalated
    cases hescalated
  | some review =>
    obtain ⟨_, _, _, hgranting⟩ := permitted
    have hfound := (grantingReview_ok hgranting).1.found
    exact ⟨evaluated', ((h.evaluate evaluation).1.reviews _ _ hfound).2⟩

theorem Since.unexpired (h : Since world start m) (t : Instant) :
    Since world start ⟨m.plane.unexpired t, m.readings+1, m.identifiers⟩ := by
  refine ⟨h.begun, fun key review hget => h.reviews key review (review_of_unexpired hget),
    fun key receipt hget => ?_, fun nonce text hget => ?_⟩
  · replace hget : (m.plane.idempotent.filter _).get? key = some receipt := hget
    rw [SortedMap.get?_filter] at hget
    exact h.receipts key receipt (Option.filter_eq_some_iff.mp hget).1
  · replace hget : (m.plane.executionIssued.filter _).get? nonce = some text := hget
    rw [SortedMap.get?_filter] at hget
    exact h.grants nonce text (Option.filter_eq_some_iff.mp hget).1

/-- In the database as well. -/
theorem since_law : CommitLaw world (Since world start) where
  step _ _ _ hstep h := since_records.step hstep h
  pruned _ t h := h.unexpired t
  drawn _ _ _ h _ hlater := h.drawn rfl hlater

end TraceGuard
