import TraceGuard.DurableKeys
import TraceGuard.ReviewLifecycle

/-! Where receipts, reviews and tasks come from. A review is about what the receipt that names it was
written for, and every registered task was compiled. In memory and in the database. -/
namespace TraceGuard
open Stateful Traces ControlPlane ExecutionAuthority ControlState

variable {world : World} {m m' : Machine}

/-- Neither a receipt is written nor a task registered. -/
def Mark.passive : Mark → Bool
  | .received _ _ | .registered _ _ _ _ => false
  | _ => true

/-- An issuance is an evaluation and changes that write no receipt. -/
theorem issue_after {self : ExecutionAuthority} {actor : Actor} {action : ActionRequest}
    {audience : String} {reviewId : Option String} {r : Except ServiceError ExecutionGrant}
    (h : outcome (self.issue world actor action audience reviewId) m = (r, m')) :
    m'=m ∨ ∃ r' u marks, outcome (ControlPlane.evaluate world actor action) m = (r', u) ∧
      Run (Change world) u marks m' ∧ ∀ mark∈marks, mark.passive = true := by
  have hstill (n : Machine) (i j : Nat) :
      Run (Change world) n [.drew] ⟨n.plane, n.readings+i, n.identifiers+j⟩ := .single (.drew i j)
  unfold issue at h
  rcases inspect_bind h with ⟨e, _, _, rfl⟩ | ⟨task, htask, h⟩
  · exact Or.inl rfl
  · rcases bind_cases h with ⟨e, heval, _⟩ | ⟨decision, evaluated, heval, h⟩
    · exact Or.inr ⟨_, m', [], heval, .nil _, by simp⟩
    · rcases bind_cases h with ⟨e, hpermit, _⟩ | ⟨review, u, hpermit, h⟩
      · obtain ⟨k, rfl, _⟩ := permitIssue_cases hpermit
        exact Or.inr ⟨_, evaluated, _, heval, hstill evaluated k 0, by simp [Mark.passive]⟩
      · obtain ⟨k, rfl, hpermitted⟩ := permitIssue_cases hpermit
        rw [now_bind, uuid4_bind, now_bind] at h
        rcases inspect_bind h with ⟨e, _, _, rfl⟩ | ⟨draft, hdraft, h⟩
        · exact Or.inr ⟨_, evaluated, _, heval, hstill evaluated (k+1+1) 1, by simp [Mark.passive]⟩
        · obtain ⟨_, rfl⟩ := Prod.mk.inj h
          obtain ⟨marks, hmarks, hrun⟩ := evaluate_changes heval
          have hallows := taskFor_ok htask
          have hgranted : Change world { evaluated with readings := evaluated.readings+k }
              (.granted actor action (self.signed world draft) review) _ :=
            .granted ((minor_run hrun hmarks.minor).tasks ▸ hallows.found)
              ⟨hallows.subject, hallows.credential⟩ hallows.domain (hpermitted review rfl) hdraft
          exact Or.inr ⟨_, evaluated, _, heval,
            .cons (.drew k 0) (.cons hgranted (.single (.recorded _ _ _ _))), by simp [Mark.passive]⟩

/-- Only these operations write receipts or register tasks. -/
theorem Emits.passive {q : ControlRequest} {r : Except ServiceError ControlResponse} {marks : List Mark}
    (h : Emits q r marks) (hq : q.evaluation=none)
    (hregister : ∀ tenant actor registration, q≠.register tenant actor registration) :
    ∀ mark∈marks, mark.passive = true := by
  cases h with
  | evaluated | unissued | issued => cases hq
  | registered => exact absurd rfl (hregister _ _ _)
  | _ => simp [Mark.passive]

theorem passive_run {P : Machine → Prop} (change : ∀ m mark m', P m → Change world m mark m' →
      mark.passive = true → P m') {marks : List Mark} (h : P m)
    (hrun : Run (Change world) m marks m') (hm : ∀ mark∈marks, mark.passive = true) : P m' := by
  induction hrun with
  | nil => exact h
  | snoc past last ih =>
    exact change _ _ _ (ih fun mark hmem => hm mark (List.mem_append_left _ hmem)) last (hm _ (by simp))

/-- What every change but a receipt or a registration keeps, and evaluations and compiled tasks do. -/
structure RecordLaw (world : World) (P : Machine → Prop) : Prop where
  change : ∀ m mark m', P m → Change world m mark m' → mark.passive = true → P m'
  evaluate : ∀ m actor action r m', P m →
    outcome (ControlPlane.evaluate world actor action) m = (r, m') → P m'
  task : ∀ m key task authority schemas, P m →
    CompiledAuthority.compile world.crypto authority schemas = .ok task.compiled →
    P { m with plane := { m.plane with executionTasks := m.plane.executionTasks.insert key task } }

section
variable {P : Machine → Prop} (law : RecordLaw world P)
include law

theorem RecordLaw.register {tenant : String} {actor : Actor} {registration : TaskRegistration}
    {r : Except ServiceError String} (h : P m)
    (hregister : outcome (ExecutionAuthority.register world tenant actor registration) m = (r, m')) :
    P m' := by
  unfold ExecutionAuthority.register at hregister
  by_cases hd : registration.authority.delegatedFields.entries≠[]
  · rw [if_pos hd] at hregister
    obtain ⟨_, rfl⟩ := Prod.mk.inj hregister
    exact h
  · rw [if_neg hd] at hregister
    rcases inspect_bind hregister with ⟨e, _, _, rfl⟩ | ⟨compiled, hcompiled, hregister⟩
    · exact h
    · rcases inspect_bind hregister with ⟨e, _, _, rfl⟩ | ⟨_, _, hregister⟩
      · exact h
      · obtain ⟨_, rfl⟩ := Prod.mk.inj hregister
        have hadded := law.task m [tenant, registration.taskId] ⟨registration.agentSubject,
          registration.serviceKeyId, compiled, registration.adapterDigest,
          registration.executionDomain⟩ _ _ h (raise_ok hcompiled)
        exact law.change _ _ _ hadded (.recorded _ _ _ _) rfl

theorem RecordLaw.step {e : ControlEvent} (hstep : ControlStep world m e m') (h : P m) : P m' := by
  obtain ⟨q, r⟩ := e
  by_cases hq : q.evaluation=none ∧ ∀ tenant actor registration, q≠.register tenant actor registration
  · obtain ⟨marks, hemits, hrun⟩ := hstep.changes
    exact passive_run law.change h hrun (hemits.passive hq.1 hq.2)
  unfold ControlStep at hstep
  cases q with
  | evaluate actor action =>
    rw [serve, outcome_map] at hstep
    exact law.evaluate m actor action _ m' h (Prod.ext rfl (Prod.mk.inj hstep).2)
  | issue self actor action audience reviewId =>
    rw [serve, outcome_map] at hstep
    have hissue : outcome (self.issue world actor action audience reviewId) m = (_, m') :=
      Prod.ext rfl (Prod.mk.inj hstep).2
    rcases issue_after hissue with rfl | ⟨r', u, marks, heval, hrun, hm⟩
    · exact h
    · exact passive_run law.change (law.evaluate _ _ _ _ _ h heval) hrun hm
  | register tenant actor registration =>
    rw [serve, outcome_map] at hstep
    exact law.register h (Prod.ext rfl (Prod.mk.inj hstep).2)
  | _ => exact absurd ⟨rfl, fun _ _ _ hno => by cases hno⟩ hq

end

/-- The review was opened together with the receipt. -/
structure ReviewOf (world : World) (key : List String) (receipt : DecisionReceipt) (review : Review) :
    Prop where
  principal : ∃ name, key = [review.tenantId, review.agentSubject, review.serviceKeyId, name]
  action : ∃ action, review.actionDigest = world.crypto.actionDigest action ∧
    review.taskId=action.taskId
  digest : review.actionDigest=receipt.digest
  epoch : review.policyEpoch=receipt.epoch

/-- A receipt that names a review: its id was drawn, its tenant had an active policy. -/
structure Origin (world : World) (m : Machine) (key : List String) (receipt : DecisionReceipt)
    (reviewId : String) : Prop where
  drawn : ∃ k< m.identifiers, reviewId = world.uuid k
  governed : ∃ tenant, key.head? = some tenant ∧ receipt.epoch ≤ m.plane.epoch tenant ∧
    (receipt.epoch=m.plane.epoch tenant → m.plane.activePolicy tenant≠none)
  about : ∀ review, m.plane.reviews.get? reviewId = some review → ReviewOf world key receipt review

/-- What holds of the stored reviews, receipts and tasks. -/
structure Rooted (world : World) (m : Machine) : Prop where
  keyed : Keyed world m
  receipts : ∀ key receipt reviewId, m.plane.idempotent.get? key = some receipt →
    receipt.result.reviewId = some reviewId → Origin world m key receipt reviewId
  tasks : ∀ key task, m.plane.executionTasks.get? key = some task → ∃ authority schemas,
    CompiledAuthority.compile world.crypto authority schemas = .ok task.compiled

theorem rooted_empty (readings identifiers : Nat) : Rooted world ⟨{}, readings, identifiers⟩ :=
  ⟨fun _ _ h => (by cases h), fun _ _ _ h => (by cases h), fun _ _ h => (by cases h)⟩

theorem ReviewOf.later {key : List String} {receipt : DecisionReceipt} {review review' : Review}
    (h : ReviewOf world key receipt review) (later : ReviewLater review review') :
    ReviewOf world key receipt review' := by
  have hbound := later.bound
  simp only [Prod.mk.injEq] at hbound
  obtain ⟨_, htenant, hdigest, hsubject, hcredential, htask, hepoch, _⟩ := hbound
  obtain ⟨hprincipal, haction, hdigest', hepoch'⟩ := h
  rw [← htenant, ← hsubject, ← hcredential] at hprincipal
  rw [← hdigest, ← htask] at haction
  exact ⟨hprincipal, haction, hdigest.trans hdigest', hepoch.trans hepoch'⟩

theorem Origin.change {key : List String} {receipt : DecisionReceipt} {reviewId : String} {mark : Mark}
    (h : Origin world m key receipt reviewId) (hchange : Change world m mark m')
    (keyed : Keyed world m) : Origin world m' key receipt reviewId := by
  obtain ⟨⟨k, hk, hdrawn⟩, ⟨tenant, hhead, hepoch, hactive⟩, habout⟩ := h
  have hkept := hchange.policiesKept tenant
  refine ⟨⟨k, hk.trans_le hchange.identifiers, hdrawn⟩,
    ⟨tenant, hhead, hepoch.trans hkept.epoch, fun hsame => ?_⟩, fun review hget => ?_⟩
  · have hbetween := hkept.epoch
    rw [← (hkept.authority (by omega)).1]
    exact hactive (by omega)
  · rcases hchange.review_cases keyed with hreviews | ⟨opened, _, hfresh, _, hinsert, _⟩ |
      ⟨r, r', hr, hinsert, hlater, _⟩
    · exact habout review (hreviews ▸ hget)
    · have hne : reviewId≠opened.reviewId := by
        rintro rfl
        have hcollision := world.fresh (hdrawn.symm.trans hfresh)
        omega
      rw [hinsert, SortedMap.get?_insert_ne _ _ hne] at hget
      exact habout review hget
    · rw [hinsert, SortedMap.get?_insert] at hget
      split at hget
      · rename_i hid
        cases hget
        exact (habout r (hid ▸ hr)).later hlater
      · exact habout review hget

theorem Rooted.change {mark : Mark} (h : Rooted world m) (hchange : Change world m mark m')
    (hm : mark.passive = true) : Rooted world m' := by
  have hreceipts : m'.plane.idempotent=m.plane.idempotent := by
    cases hchange with
    | received => cases hm
    | granted => rw [recordGrant_eq]
    | _ => rfl
  refine ⟨hchange.keyed h.keyed, fun key receipt reviewId hget hid =>
    (h.receipts key receipt reviewId (hreceipts ▸ hget) hid).change hchange h.keyed, ?_⟩
  intro key task hget
  cases hchange with
  | registered => cases hm
  | granted =>
    rw [recordGrant_eq] at hget
    exact h.tasks key task hget
  | bound _ found =>
    rw [bindDomain, SortedMap.get?_insert] at hget
    split at hget
    · cases hget
      obtain ⟨authority, schemas, hcompiled⟩ := h.tasks _ _ found
      exact ⟨authority, schemas, hcompiled⟩
    · exact h.tasks key task hget
  | _ => exact h.tasks key task hget

theorem Rooted.run {marks : List Mark} (h : Rooted world m) (hrun : Run (Change world) m marks m')
    (hm : ∀ mark∈marks, mark.passive = true) : Rooted world m' :=
  passive_run (fun _ _ _ h hchange hm => h.change hchange hm) h hrun hm

/-- What an evaluation opens a review as. -/
theorem openReview_opened {actor : Actor} {credential auditId : String} {action : ActionRequest}
    {epoch : Nat} {review : Review}
    (h : outcome (openReview world actor credential action auditId epoch) m = (.ok review, m')) :
    (review.reviewId = world.uuid m.identifiers ∧ m.identifiers < m'.identifiers) ∧
      m'.plane.reviews.get? review.reviewId = some review ∧ SameAuthority m.plane m'.plane ∧
      (review.tenantId, review.agentSubject, review.serviceKeyId) =
        (action.tenantId, actor.subject, credential) ∧
      (review.taskId, review.actionDigest, review.policyEpoch) =
        (action.taskId, world.crypto.actionDigest action, epoch) := by
  by_cases hp : 1≤epoch
  · simp only [openReview, dif_pos hp] at h
    obtain ⟨hr, rfl⟩ := Prod.mk.inj h
    cases hr
    exact ⟨⟨rfl, Nat.lt_of_lt_of_le (Nat.lt_succ_self _) (Nat.le_succ _)⟩, SortedMap.get?_insert_self _ _ _,
      ⟨rfl, rfl, rfl, rfl, rfl, rfl⟩, rfl, rfl⟩
  · simp only [openReview, dif_neg hp] at h
    cases (Prod.mk.inj h).1

theorem decideAction_governed {s : ControlState} {action : ActionRequest}
    (h : (decideAction world s action).decision=.escalate) : s.activePolicy action.tenantId≠none := by
  intro hnone
  rw [decideAction, hnone] at h
  cases h

/-- A new receipt with its origin. -/
theorem Rooted.received {key : List String} {receipt : DecisionReceipt} (h : Rooted world m)
    (origin : ∀ reviewId, receipt.result.reviewId = some reviewId →
      Origin world m key receipt reviewId) (readings : Nat) :
    Rooted world ⟨{ m.plane with idempotent := m.plane.idempotent.insert key receipt }, readings,
      m.identifiers⟩ := by
  refine ⟨h.keyed, fun key' receipt' reviewId hget hid => ?_, h.tasks⟩
  have hold : Origin world m key' receipt' reviewId := by
    rw [SortedMap.get?_insert] at hget
    split at hget
    · rename_i hkey
      cases hget
      exact hkey ▸ origin reviewId hid
    · exact h.receipts key' receipt' reviewId hget hid
  exact ⟨hold.drawn, hold.governed, hold.about⟩

/-- A new evaluation writes a receipt that names the review it has opened, or none. -/
theorem Rooted.evaluateNew {actor : Actor} {credential : String} {action : ActionRequest}
    {r : Except ServiceError DecisionResponse} (h : Rooted world m)
    (hnew : outcome (ControlPlane.evaluateNew world actor credential action) m = (r, m')) :
    Rooted world m' := by
  unfold ControlPlane.evaluateNew at hnew
  rw [get_bind, appendAudit_bind] at hnew
  have hfirst : Change world m (.recorded _) _ := .recorded action.tenantId "action.evaluated"
    actor.subject (evaluatedPayload world action (decideAction world m.plane action))
  have hrecorded := h.change hfirst rfl
  by_cases hd : (decideAction world m.plane action).decision=.escalate
  · rw [if_pos hd] at hnew
    rcases bind_cases hnew with ⟨e, hopen, rfl⟩ | ⟨review, u, hopen, hnew⟩
    · rcases openReview_changes hopen rfl with ⟨_, _, hrun⟩ | ⟨_, _, hok, _⟩
      · exact hrecorded.run hrun (by simp [Mark.passive])
      · cases hok
    · obtain ⟨⟨hid, hdrawn⟩, hget, hsame, hprincipal, hsubject⟩ := openReview_opened hopen
      simp only [Prod.mk.injEq] at hprincipal hsubject
      obtain ⟨htenant, hagent, hcredential⟩ := hprincipal
      obtain ⟨htask, hdigest, hepoch⟩ := hsubject
      have hopened : Rooted world u := by
        rcases openReview_changes hopen rfl with ⟨_, hno, _⟩ | ⟨_, _, _, hrun, _⟩
        · cases hno
        · exact hrecorded.run hrun (by simp [Mark.passive])
      have hnow : u.plane.epoch action.tenantId = m.plane.epoch action.tenantId := by
        rw [ControlState.epoch, hsame.epochs]
        rfl
      have hactive : u.plane.activePolicy action.tenantId = m.plane.activePolicy action.tenantId := by
        rw [ControlState.activePolicy, policiesOf, hsame.policies]
        rfl
      obtain ⟨_, rfl⟩ := Prod.mk.inj hnew
      refine hopened.received (fun reviewId hreview => ?_) _
      cases hreview
      refine ⟨⟨_, hdrawn, hid⟩, ⟨action.tenantId, rfl, hnow.ge, fun _ => ?_⟩, fun review' hget' => ?_⟩
      · exact hactive ▸ decideAction_governed hd
      · rw [hget] at hget'
        cases hget'
        exact ⟨⟨action.idempotencyKey, by rw [htenant, hagent, hcredential]; rfl⟩,
          ⟨action, hdigest, htask⟩, hdigest, hepoch⟩
  · rw [if_neg hd] at hnew
    obtain ⟨_, rfl⟩ := Prod.mk.inj hnew
    refine hrecorded.received (fun reviewId hreview => ?_) _
    rw [show _ = none from decideAction_reviewId world m.plane action] at hreview
    cases hreview

/-- Readings and identifiers that are drawn change nothing. -/
theorem Rooted.drawn (h : Rooted world m) (hplane : m'.plane=m.plane)
    (hidentifiers : m.identifiers ≤ m'.identifiers) : Rooted world m' := by
  refine ⟨fun key review hget => ?_, fun key receipt reviewId hget hid => ?_, hplane ▸ h.tasks⟩
  · obtain ⟨hid, k, hk, hkey⟩ := h.keyed key review (hplane ▸ hget)
    exact ⟨hid, k, hk.trans_le hidentifiers, hkey⟩
  · obtain ⟨⟨k, hk, hdrawn⟩, hgoverned, habout⟩ := h.receipts key receipt reviewId (hplane ▸ hget) hid
    exact ⟨⟨k, hk.trans_le hidentifiers, hdrawn⟩, hplane ▸ hgoverned, hplane ▸ habout⟩

theorem Rooted.evaluate {actor : Actor} {action : ActionRequest}
    {r : Except ServiceError DecisionResponse} (h : Rooted world m)
    (hevaluate : outcome (ControlPlane.evaluate world actor action) m = (r, m')) : Rooted world m' := by
  unfold ControlPlane.evaluate at hevaluate
  rcases inspect_bind hevaluate with ⟨e, _, rfl, rfl⟩ | ⟨credential, _, hevaluate⟩
  · exact h
  · rw [get_bind] at hevaluate
    cases hkey : m.plane.idempotent.get? (receiptKey actor credential action) with
    | none =>
      rw [hkey] at hevaluate
      exact h.evaluateNew hevaluate
    | some cached =>
      rw [hkey] at hevaluate
      obtain ⟨_, _, hrun⟩ := replayReceipt_changes hevaluate
      exact h.drawn (replayReceipt_cases hevaluate).1 (identifiers_run hrun)

theorem rooted_records : RecordLaw world (Rooted world) where
  change _ _ _ h hchange hm := h.change hchange hm
  evaluate _ _ _ _ _ h hevaluate := h.evaluate hevaluate
  task m key task authority schemas h hcompiled := by
    refine ⟨h.keyed, fun key receipt reviewId hget hid => ?_, fun key' task' hget => ?_⟩
    · obtain ⟨hdrawn, hgoverned, habout⟩ := h.receipts key receipt reviewId hget hid
      exact ⟨hdrawn, hgoverned, habout⟩
    · rw [SortedMap.get?_insert] at hget
      split at hget
      · cases hget
        exact ⟨_, _, hcompiled⟩
      · exact h.tasks key' task' hget

theorem ControlStep.rooted {e : ControlEvent} (hstep : ControlStep world m e m')
    (h : Rooted world m) : Rooted world m' := rooted_records.step hstep h

theorem Rooted.history {es : List ControlEvent} (h : Rooted world m) (hrun : ControlRun world m es m') :
    Rooted world m' := by
  induction hrun with
  | nil => exact h
  | snoc _ last ih => exact last.rooted ih

theorem Rooted.unexpired (h : Rooted world m) (t : Instant) :
    Rooted world ⟨m.plane.unexpired t, m.readings+1, m.identifiers⟩ := by
  refine ⟨fun key review hget => h.keyed key review (review_of_unexpired hget),
    fun key receipt reviewId hget hid => ?_, h.tasks⟩
  have hget : (m.plane.idempotent.filter _).get? key = some receipt := hget
  rw [SortedMap.get?_filter] at hget
  obtain ⟨hdrawn, hgoverned, habout⟩ := h.receipts key receipt reviewId
    (Option.filter_eq_some_iff.mp hget).1 hid
  exact ⟨hdrawn, hgoverned, fun review hreview => habout review (review_of_unexpired hreview)⟩

/-- In the database as well. -/
theorem rooted_law : DurableLaw world (Rooted world) where
  empty := rooted_empty
  step _ _ _ hstep h := ControlStep.rooted hstep h
  pruned _ t h := h.unexpired t
  drawn _ _ _ h _ hidentifiers := h.drawn rfl hidentifiers

end TraceGuard
