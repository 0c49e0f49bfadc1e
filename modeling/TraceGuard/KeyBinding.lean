import TraceGuard.Receipts

/-! An idempotency key stays bound to the decision that was returned under it. -/
namespace TraceGuard
open Stateful Traces ControlPlane ExecutionAuthority

/-- What an evaluation under a bound key does: it returns the decision again and changes nothing, or it
raises; for another action, another epoch or after the lifetime it raises a conflict. -/
structure KeyBound (world : World) (m : Machine) (actor : Actor) (action : ActionRequest)
    (digest : String) (epoch : Nat) (expires : Instant) (d : DecisionResponse) : Prop where
  same : ∀ d', (outcome (ControlPlane.evaluate world actor action) m).1 = .ok d' → d'=d
  unchanged : (outcome (ControlPlane.evaluate world actor action) m).2.plane = m.plane
  conflict : ∀ credential, agentCredential m.plane actor action = .ok credential →
    digest≠world.crypto.actionDigest action ∨ epoch≠m.plane.epoch action.tenantId ∨
      expires.micros ≤ (world.clock m.readings).micros →
    ∃ message, (outcome (ControlPlane.evaluate world actor action) m).1 = .error (.conflict message)

/-- The evaluation that an operation makes. -/
def ControlRequest.evaluation : ControlRequest → Option (Actor × ActionRequest)
  | .evaluate actor action | .issue _ actor action _ _ => some (actor, action)
  | _ => none

/-- The operation evaluated the action, and the evaluation returned the decision. -/
def Decided (world : World) (m : Machine) (q : ControlRequest) (actor : Actor) (action : ActionRequest)
    (d : DecisionResponse) : Prop :=
  q.evaluation = some (actor, action) ∧
    (outcome (ControlPlane.evaluate world actor action) m).1 = .ok d ∧
    ((∃ task, taskFor world m.plane actor action = .ok task) ∨ q = .evaluate actor action)

variable {world : World} {m m' : Machine}

/-- Every receipt has its lifetime from some reading of the clock. -/
def Lifetimes (world : World) (m : Machine) : Prop :=
  ∀ key receipt, m.plane.idempotent.get? key = some receipt →
    ∃ k< m.readings, receipt.expiresAt = (world.clock k).later (seconds 300)

theorem Lifetimes.change {mark : Mark} (h : Lifetimes world m) (hchange : Change world m mark m') :
    Lifetimes world m' := by
  intro key receipt hget
  by_cases hold : m.plane.idempotent.get? key = some receipt
  · obtain ⟨k, hk, hexpires⟩ := h key receipt hold
    exact ⟨k, hk.trans_le hchange.readings, hexpires⟩
  · cases hchange with
    | @received key' receipt' absent lifetime linked =>
      by_cases hkey : key=key'
      · subst hkey
        rw [SortedMap.get?_insert_self] at hget
        cases hget
        exact ⟨_, Nat.lt_succ_self _, lifetime⟩
      · rw [SortedMap.get?_insert_ne _ _ hkey] at hget
        exact absurd hget hold
    | granted =>
      rw [recordGrant_eq] at hget
      exact absurd hget hold
    | _ => exact absurd hget hold

theorem Lifetimes.run {marks : List Mark} (h : Lifetimes world m) (hrun : Run (Change world) m marks m') :
    Lifetimes world m' := by
  induction hrun with
  | nil => exact h
  | snoc past last ih => exact ih.change last

theorem lifetimes_empty (readings identifiers : Nat) : Lifetimes world ⟨{}, readings, identifiers⟩ := by
  intro key receipt hget
  cases hget

/-- After its evaluation, an issuance leaves the receipts as they are. -/
theorem issue_receipts {self : ExecutionAuthority} {actor : Actor} {action : ActionRequest}
    {audience : String} {reviewId : Option String} {task : RegisteredTask} {d : DecisionResponse}
    {u : Machine} {r : Except ServiceError ExecutionGrant}
    (htask : taskFor world m.plane actor action = .ok task)
    (hevaluate : outcome (ControlPlane.evaluate world actor action) m = (.ok d, u))
    (h : outcome (self.issue world actor action audience reviewId) m = (r, m')) :
    m'.plane.idempotent=u.plane.idempotent ∧ u.readings ≤ m'.readings := by
  unfold issue at h
  rw [inspect, outcome_bind, outcome_check, htask] at h
  dsimp only at h
  rw [outcome_bind, hevaluate] at h
  dsimp only at h
  rcases bind_cases h with ⟨e, hpermit, rfl⟩ | ⟨review, v, hpermit, h⟩
  · obtain ⟨k, rfl, _⟩ := permitIssue_cases hpermit
    exact ⟨rfl, Nat.le_add_right _ _⟩
  · obtain ⟨k, rfl, _⟩ := permitIssue_cases hpermit
    rw [now_bind, uuid4_bind, now_bind] at h
    rcases inspect_bind h with ⟨e, _, rfl, rfl⟩ | ⟨draft, _, h⟩
    · exact ⟨rfl, by dsimp only; omega⟩
    · obtain ⟨_, rfl⟩ := Prod.mk.inj h
      refine ⟨?_, ?_⟩
      · show (recordGrant u.plane _ review).idempotent = _
        rw [recordGrant_eq]
      · show u.readings ≤ u.readings+k+1+1+1
        omega

/-- A returned decision leaves its receipt. -/
theorem Decided.receipt {e : ControlEvent} {actor : Actor} {action : ActionRequest}
    {d : DecisionResponse} (h : Decided world m e.1 actor action d) (hstep : ControlStep world m e m') :
    ∃ credential receipt, actor.serviceKeyId = some credential ∧
      m'.plane.idempotent.get? (receiptKey actor credential action) = some receipt ∧
      Answers world receipt action d (m.plane.epoch action.tenantId) ∧
      (m.plane.idempotent.get? (receiptKey actor credential action) = some receipt ∨
        ∃ k, m.readings ≤ k ∧ k< m'.readings ∧
          receipt.expiresAt = (world.clock k).later (seconds 300)) := by
  obtain ⟨hevaluation, hd, htask⟩ := h
  obtain ⟨q, r⟩ := e
  obtain ⟨u, heval⟩ : ∃ u, outcome (ControlPlane.evaluate world actor action) m = (.ok d, u) :=
    ⟨_, Prod.ext hd rfl⟩
  obtain ⟨credential, receipt, hactor, hget, hanswers, hreceipt⟩ := evaluate_receipt heval
  have hafter : m'.plane.idempotent=u.plane.idempotent ∧ u.readings ≤ m'.readings := by
    unfold ControlStep at hstep
    cases q with
    | evaluate actor' action' =>
      cases hevaluation
      rw [serve, outcome_map, heval] at hstep
      obtain ⟨_, rfl⟩ := Prod.mk.inj hstep
      exact ⟨rfl, le_rfl⟩
    | issue self actor' action' audience reviewId =>
      cases hevaluation
      obtain ⟨task, htask⟩ := htask.resolve_right fun h => by cases h
      rw [serve, outcome_map] at hstep
      exact issue_receipts htask heval (Prod.ext rfl (Prod.mk.inj hstep).2)
    | _ => cases hevaluation
  refine ⟨credential, receipt, hactor, hafter.1 ▸ hget, hanswers, hreceipt.imp_right ?_⟩
  rintro ⟨k, hk, hreadings, hexpires⟩
  exact ⟨k, hk, by omega, hexpires⟩

/-- The receipt of a returned decision has its lifetime from a reading of the past, and a new one from a
reading of its own evaluation. -/
theorem Decided.lifetime {e : ControlEvent} {actor : Actor} {action : ActionRequest}
    {d : DecisionResponse} (h : Decided world m e.1 actor action d) (hstep : ControlStep world m e m')
    (hm : Lifetimes world m) :
    ∃ credential receipt k, actor.serviceKeyId = some credential ∧
      m'.plane.idempotent.get? (receiptKey actor credential action) = some receipt ∧
      Answers world receipt action d (m.plane.epoch action.tenantId) ∧ k< m'.readings ∧
      (m.plane.idempotent.get? (receiptKey actor credential action) = none → m.readings ≤ k) ∧
      receipt.expiresAt = (world.clock k).later (seconds 300) := by
  obtain ⟨credential, receipt, hactor, hget, hanswers, hold | ⟨k, hnew, hk, hexpires⟩⟩ :=
    h.receipt hstep
  · obtain ⟨_, _, hmoved⟩ := hstep.changes
    obtain ⟨k, hk, hexpires⟩ := hm _ _ hold
    refine ⟨credential, receipt, k, hactor, hget, hanswers, hk.trans_le (readings_run hmoved),
      fun hnone => ?_, hexpires⟩
    rw [hold] at hnone
    cases hnone
  · exact ⟨credential, receipt, k, hactor, hget, hanswers, hk, fun _ => hnew, hexpires⟩

theorem receiptKey_actor {actor actor' : Actor} {action action' : ActionRequest} {credential : String}
    (htenant : action'.tenantId=action.tenantId) (hsubject : actor'.subject=actor.subject)
    (hkey : action'.idempotencyKey=action.idempotencyKey) :
    receiptKey actor' credential action' = receiptKey actor credential action := by
  rw [receiptKey, receiptKey, htenant, hsubject, hkey]

/-- A receipt binds its key. -/
theorem keyBound_of_receipt {actor actor' : Actor} {action action' : ActionRequest} {credential : String}
    {receipt : DecisionReceipt} {d : DecisionResponse} {epoch : Nat}
    (hactor : actor.serviceKeyId = some credential)
    (hget : m.plane.idempotent.get? (receiptKey actor credential action) = some receipt)
    (hanswers : Answers world receipt action d epoch)
    (htenant : action'.tenantId=action.tenantId) (hsubject : actor'.subject=actor.subject)
    (hcredential : actor'.serviceKeyId=actor.serviceKeyId)
    (hkey : action'.idempotencyKey=action.idempotencyKey) :
    KeyBound world m actor' action' (world.crypto.actionDigest action) epoch receipt.expiresAt d := by
  rw [← receiptKey_actor htenant hsubject hkey] at hget
  obtain ⟨hplane, hsame, hconflict⟩ := evaluate_bound (hcredential.trans hactor) hget rfl
  refine ⟨fun d' hd' => (hsame d' hd').trans hanswers.result, hplane, fun credential' hauth hstale => ?_⟩
  have hcred := agentCredential_ok hauth
  rw [hcredential, hactor] at hcred
  cases hcred
  rw [← hanswers.digest, ← hanswers.epoch] at hstale
  exact hconflict hauth hstale

/-- In memory, a key stays bound for the rest of the run. -/
theorem ControlPlane.key_bound {es fs : List ControlEvent} {e : ControlEvent} {v : Machine}
    {actor actor' : Actor} {action action' : ActionRequest} {d : DecisionResponse}
    (h : ControlRun world {} es m) (hstep : ControlStep world m e m')
    (hd : Decided world m e.1 actor action d) (hrest : ControlRun world m' fs v)
    (htenant : action'.tenantId=action.tenantId) (hsubject : actor'.subject=actor.subject)
    (hcredential : actor'.serviceKeyId=actor.serviceKeyId)
    (hkey : action'.idempotencyKey=action.idempotencyKey) :
    ∃ credential k, actor.serviceKeyId = some credential ∧ k< m'.readings ∧
      (m.plane.idempotent.get? (receiptKey actor credential action) = none → m.readings ≤ k) ∧
      KeyBound world v actor' action' (world.crypto.actionDigest action)
        (m.plane.epoch action.tenantId) ((world.clock k).later (seconds 300)) d := by
  obtain ⟨_, _, hpast⟩ := ControlRun.changes h
  obtain ⟨_, _, hfuture⟩ := hrest.changes
  obtain ⟨credential, receipt, k, hactor, hget, hanswers, hk, hfresh, hexpires⟩ :=
    hd.lifetime hstep ((lifetimes_empty 0 0).run hpast)
  have hbound := keyBound_of_receipt hactor (receipt_run hfuture hget) hanswers htenant hsubject
    hcredential hkey
  exact ⟨credential, k, hactor, hk, hfresh, hexpires ▸ hbound⟩

end TraceGuard
