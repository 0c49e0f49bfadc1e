import TraceGuard.ExecutionRuns

/-! Decision receipts. A key that has a decision answers later evaluations with it, or raises. -/
namespace TraceGuard
open Stateful Traces ControlPlane

/-- The receipt holds the decision on the action, taken in the epoch. -/
structure Answers (world : World) (receipt : DecisionReceipt) (action : ActionRequest)
    (d : DecisionResponse) (epoch : Nat) : Prop where
  result : receipt.result = d
  digest : receipt.digest = world.crypto.actionDigest action
  epoch : receipt.epoch = epoch

variable {world : World} {m m' : Machine}

/-- What a change does to the receipts. -/
theorem Change.receipt_cases {mark : Mark} (h : Change world m mark m') :
    m'.plane.idempotent = m.plane.idempotent ∨
      ∃ key receipt, m'.plane.idempotent = m.plane.idempotent.insert key receipt ∧
        m'.plane.reviews = m.plane.reviews ∧ m.plane.idempotent.get? key = none ∧
        ∀ reviewId, receipt.result.reviewId = some reviewId →
          ∃ review, m.plane.reviews.get? reviewId = some review ∧ key.head? = some review.tenantId := by
  cases h with
  | received absent _ linked => exact Or.inr ⟨_, _, rfl, rfl, absent, linked⟩
  | granted =>
    rw [recordGrant_eq]
    exact Or.inl rfl
  | _ => exact Or.inl rfl

theorem Change.receipt_kept {mark : Mark} {key : List String} {receipt : DecisionReceipt}
    (h : Change world m mark m') (hkey : m.plane.idempotent.get? key = some receipt) :
    m'.plane.idempotent.get? key = some receipt := by
  rcases h.receipt_cases with hsame | ⟨key', receipt', hinsert, _, habsent, _⟩
  · rw [hsame, hkey]
  · rw [hinsert, SortedMap.get?_insert_ne _ _ ?_, hkey]
    rintro rfl
    rw [habsent] at hkey
    cases hkey

theorem receipt_run {marks : List Mark} {key : List String} {receipt : DecisionReceipt}
    (h : Run (Change world) m marks m') (hkey : m.plane.idempotent.get? key = some receipt) :
    m'.plane.idempotent.get? key = some receipt := by
  induction h with
  | nil => exact hkey
  | snoc past last ih => exact last.receipt_kept ih

namespace ControlPlane

theorem agentCredential_ok {s : ControlState} {actor : Actor} {action : ActionRequest}
    {credential : String} (h : agentCredential s actor action = .ok credential) :
    actor.serviceKeyId = some credential := by
  obtain ⟨_, _, h⟩ := Raising.bind_ok h
  obtain ⟨_, h⟩ := Raising.guard_ok h
  cases hkey : actor.serviceKeyId with
  | none => rw [hkey] at h; cases h
  | some key =>
    rw [hkey] at h
    cases h
    rfl

theorem openReview_readings {actor : Actor} {credential auditId : String} {action : ActionRequest}
    {epoch : Nat} {review : Review}
    (h : outcome (openReview world actor credential action auditId epoch) m = (.ok review, m')) :
    m.readings ≤ m'.readings := by
  by_cases hp : 1≤epoch
  · simp only [openReview, dif_pos hp] at h
    obtain ⟨_, rfl⟩ := Prod.mk.inj h
    exact Nat.le_add_right _ 2
  · simp only [openReview, dif_neg hp] at h
    cases (Prod.mk.inj h).1

/-- A new decision leaves its receipt, with a lifetime from the end of the evaluation. -/
theorem evaluateNew_receipt {actor : Actor} {credential : String} {action : ActionRequest}
    {d : DecisionResponse}
    (h : outcome (evaluateNew world actor credential action) m = (.ok d, m')) :
    ∃ receipt k, m.readings ≤ k ∧ m'.readings = k+1 ∧
      m'.plane.idempotent.get? (receiptKey actor credential action) = some receipt ∧
      Answers world receipt action d (m.plane.epoch action.tenantId) ∧
      receipt.expiresAt = (world.clock k).later (seconds 300) := by
  unfold evaluateNew at h
  rw [get_bind, appendAudit_bind] at h
  by_cases hd : (decideAction world m.plane action).decision=.escalate
  · rw [if_pos hd] at h
    rcases bind_cases h with ⟨e, _, he⟩ | ⟨review, u, hopen, h⟩
    · cases he
    · have hreadings := openReview_readings hopen
      obtain ⟨hr, rfl⟩ := Prod.mk.inj h
      cases hr
      exact ⟨_, _, (Nat.le_succ _).trans hreadings, rfl, SortedMap.get?_insert_self _ _ _,
        ⟨rfl, rfl, rfl⟩, rfl⟩
  · rw [if_neg hd] at h
    obtain ⟨hr, rfl⟩ := Prod.mk.inj h
    cases hr
    exact ⟨_, _, Nat.le_succ _, rfl, SortedMap.get?_insert_self _ _ _, ⟨rfl, rfl, rfl⟩, rfl⟩

/-- What a receipt does with a later evaluation under its key. -/
theorem replayReceipt_cases {cached : DecisionReceipt} {digest : String} {epoch : Nat}
    {r : Except ServiceError DecisionResponse}
    (h : outcome (replayReceipt world cached digest epoch) m = (r, m')) :
    m'.plane = m.plane ∧
      ((r = .ok cached.result ∧ cached.digest=digest ∧ cached.epoch=epoch ∧
          (world.clock m.readings).micros < cached.expiresAt.micros) ∨
        ((∃ message, r = .error (.conflict message)) ∧ (cached.digest≠digest ∨ cached.epoch≠epoch ∨
          cached.expiresAt.micros ≤ (world.clock m.readings).micros))) := by
  unfold replayReceipt at h
  by_cases hd : cached.digest≠digest
  · rw [if_pos hd] at h
    obtain ⟨rfl, rfl⟩ := Prod.mk.inj h
    exact ⟨rfl, Or.inr ⟨⟨_, rfl⟩, Or.inl hd⟩⟩
  · rw [if_neg hd] at h
    change outcome (now world >>= _) m = (r, m') at h
    rw [now_bind] at h
    by_cases hs : cached.epoch≠epoch ∨ cached.expiresAt.micros ≤ (world.clock m.readings).micros
    · rw [if_pos hs] at h
      obtain ⟨rfl, rfl⟩ := Prod.mk.inj h
      exact ⟨rfl, Or.inr ⟨⟨_, rfl⟩, Or.inr hs⟩⟩
    · rw [if_neg hs] at h
      obtain ⟨rfl, rfl⟩ := Prod.mk.inj h
      obtain ⟨hepoch, hlive⟩ := not_or.mp hs
      exact ⟨rfl, Or.inl ⟨rfl, not_not.mp hd, not_not.mp hepoch, not_le.mp hlive⟩⟩

/-- A returned decision is that of a receipt under the key. -/
theorem evaluate_receipt {actor : Actor} {action : ActionRequest} {d : DecisionResponse}
    (h : outcome (ControlPlane.evaluate world actor action) m = (.ok d, m')) :
    ∃ credential receipt, actor.serviceKeyId = some credential ∧
      m'.plane.idempotent.get? (receiptKey actor credential action) = some receipt ∧
      Answers world receipt action d (m.plane.epoch action.tenantId) ∧
      (m.plane.idempotent.get? (receiptKey actor credential action) = some receipt ∨
        ∃ k, m.readings ≤ k ∧ m'.readings = k+1 ∧
          receipt.expiresAt = (world.clock k).later (seconds 300)) := by
  unfold ControlPlane.evaluate at h
  rcases inspect_bind h with ⟨e, _, he, _⟩ | ⟨credential, hcredential, h⟩
  · cases he
  · have hactor := agentCredential_ok hcredential
    rw [get_bind] at h
    cases hkey : m.plane.idempotent.get? (receiptKey actor credential action) with
    | none =>
      rw [hkey] at h
      obtain ⟨receipt, k, hk, hreadings, hget, hanswers, hlifetime⟩ := evaluateNew_receipt h
      exact ⟨credential, receipt, hactor, hget, hanswers, Or.inr ⟨k, hk, hreadings, hlifetime⟩⟩
    | some cached =>
      rw [hkey] at h
      obtain ⟨hplane, ⟨hr, hdigest, hepoch, _⟩ | ⟨⟨_, he⟩, _⟩⟩ := replayReceipt_cases h
      · cases hr
        exact ⟨credential, cached, hactor, hplane ▸ hkey, ⟨rfl, hdigest, hepoch⟩, Or.inl hkey⟩
      · cases he

/-- Under a key with a receipt, an evaluation returns the receipt's decision or raises; where the
actor is authorized, it raises a conflict for another action, another epoch or a late time. -/
theorem evaluate_bound {actor : Actor} {action : ActionRequest} {credential : String}
    {receipt : DecisionReceipt} {r : Except ServiceError DecisionResponse}
    (hactor : actor.serviceKeyId = some credential)
    (hkey : m.plane.idempotent.get? (receiptKey actor credential action) = some receipt)
    (h : outcome (ControlPlane.evaluate world actor action) m = (r, m')) :
    m'.plane = m.plane ∧ (∀ d, r = .ok d → d=receipt.result) ∧
      (agentCredential m.plane actor action = .ok credential →
        receipt.digest≠world.crypto.actionDigest action ∨
          receipt.epoch≠m.plane.epoch action.tenantId ∨
          receipt.expiresAt.micros ≤ (world.clock m.readings).micros →
        ∃ message, r = .error (.conflict message)) := by
  unfold ControlPlane.evaluate at h
  rcases inspect_bind h with ⟨e, herror, rfl, rfl⟩ | ⟨credential', hcredential, h⟩
  · refine ⟨rfl, fun d hd => ?_, fun hauth => ?_⟩
    · cases hd
    · rw [herror] at hauth
      cases hauth
  · have hsame := agentCredential_ok hcredential
    rw [hactor] at hsame
    cases hsame
    rw [get_bind, hkey] at h
    obtain ⟨hplane, ⟨rfl, hdigest, hepoch, hlive⟩ | ⟨hconflict, _⟩⟩ := replayReceipt_cases h
    · refine ⟨hplane, fun d hd => (Except.ok.inj hd).symm, fun _ hstale => ?_⟩
      rcases hstale with hs | hs | hs
      · exact absurd hdigest hs
      · exact absurd hepoch hs
      · exact absurd hlive (not_lt.mpr hs)
    · refine ⟨hplane, fun d hd => ?_, fun _ _ => hconflict⟩
      obtain ⟨message, rfl⟩ := hconflict
      cases hd

end ControlPlane
end TraceGuard
