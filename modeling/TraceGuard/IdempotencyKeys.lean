import TraceGuard.DurableKeys
import TraceGuard.ReviewLifecycle

/-! Idempotency keys in memory and in the database, and a key that the database binds again after its
receipt has expired. -/
namespace TraceGuard
open Stateful Traces ControlPlane ExecutionAuthority SQLiteControlPlane

/-- A key stays bound: in memory for ever, and in the database until a transaction reads the clock at
the receipt's expiry. -/
theorem ControlPlane.idempotency_keys (world : World)
    (hverify : ∀ seed text, world.crypto.verify (world.crypto.publicKey seed) text
      (world.crypto.sign seed text) = true)
    {actor actor' : Actor} {action action' : ActionRequest} {decision : DecisionResponse}
    (htenant : action'.tenantId=action.tenantId) (hsubject : actor'.subject=actor.subject)
    (hcredential : actor'.serviceKeyId=actor.serviceKeyId)
    (hkey : action'.idempotencyKey=action.idempotencyKey) :
    (∀ es m e m' fs v, ControlRun world {} es m → ControlStep world m e m' →
        Decided world m e.1 actor action decision → ControlRun world m' fs v →
        ∃ credential k, actor.serviceKeyId = some credential ∧ k< m'.readings ∧
          (m.plane.idempotent.get? (receiptKey actor credential action) = none → m.readings ≤ k) ∧
          KeyBound world v actor' action' (world.crypto.actionDigest action)
            (m.plane.epoch action.tenantId) ((world.clock k).later (seconds 300)) decision) ∧
      ∀ (self : SQLiteControlPlane) es d q a d' fs v response v',
        StoreRun world self {} es d → self.Store world d ⟨self, .serving q, .ok a⟩ d' →
        Decided world (d.opened world self.keyId) q actor action decision →
        StoreRun world self d' fs v →
        self.Store world v ⟨self, .serving (.evaluate actor' action'), response⟩ v' →
        ∃ credential k, actor.serviceKeyId = some credential ∧ k<d'.readings ∧
          ((d.opened world self.keyId).plane.idempotent.get? (receiptKey actor credential action) = none →
            d.readings < k) ∧
          ((∀ j, k<j → j ≤ v.readings →
              (world.clock j).micros < ((world.clock k).later (seconds 300)).micros) →
            KeyAnswers world self.keyId v v' response actor' action' (world.crypto.actionDigest action)
              ((d.opened world self.keyId).plane.epoch action.tenantId)
              ((world.clock k).later (seconds 300)) decision) :=
  ⟨fun _ _ _ _ _ _ h hstep hd hrest =>
      ControlPlane.key_bound h hstep hd hrest htenant hsubject hcredential hkey,
    fun _ _ _ _ _ _ _ _ _ _ h hstep hd hrest hlast =>
      SQLiteControlPlane.key_bound hverify h hstep hd hrest hlast htenant hsubject hcredential hkey⟩

section
variable {world : World} {self : SQLiteControlPlane}

/-- The database holds what the machine has, after so many commits. -/
structure Durable.At (d : Durable) (world : World) (store : SQLiteControlPlane) (m : Machine)
    (commits : Nat) : Prop where
  saved : d.Saved world store m.plane commits
  readings : d.readings=m.readings
  identifiers : d.identifiers=m.identifiers

theorem answered (q : DurableRequest) (d : Durable) :
    ∃ response d', self.Store world d ⟨self, q, response⟩ d' :=
  ⟨(self.answer world {} q d).1, (self.answer world {} q d).2, rfl, rfl, rfl, {}, rfl⟩

theorem opening_at {m : Machine}
    (hop : outcome (self.transacted world (pure ControlResponse.done)) {} = (.ok .done, m))
    (hfits : self.Fits ⟨m.plane, 1⟩) :
    ∃ d, self.Store world {} ⟨self, .opening true, .ok .done⟩ d ∧ d.At world self m 1 := by
  obtain ⟨row, hsave, hstep⟩ := opening_commits hop hfits
  obtain ⟨_, _, _, htidy⟩ := transacted_ok hop
  exact ⟨_, ⟨rfl, hstep⟩, ⟨⟨row, rfl, hsave⟩, htidy⟩, rfl, rfl⟩

theorem serving_at (hverify : ∀ seed text, world.crypto.verify (world.crypto.publicKey seed) text
      (world.crypto.sign seed text) = true) {d : Durable} {m m' : Machine} {n : Nat} {q : ControlRequest}
    {a : ControlResponse} (hd : d.At world self m n) (hbefore : beforeTransaction world q = .ok ())
    (hop : outcome (self.transacted world (serve world q)) m = (.ok a, m'))
    (hfits : self.Fits ⟨m'.plane, n+1⟩) :
    ∃ d', self.Store world d ⟨self, .serving q, .ok a⟩ d' ∧ d'.At world self m' (n+1) := by
  have hmachine : m = ⟨m.plane, d.readings, d.identifiers⟩ := by rw [hd.readings, hd.identifiers]
  rw [hmachine] at hop
  obtain ⟨row, hsave, htransaction⟩ := transaction_commits
    (begin_of_saved hverify false {} hd.saved) hop hfits
  obtain ⟨_, _, _, htidy⟩ := transacted_ok hop
  refine ⟨⟨some row, m'.readings, m'.identifiers⟩, ⟨rfl, rfl, rfl, {}, ?_⟩, ⟨⟨row, rfl, hsave⟩, htidy⟩,
    rfl, rfl⟩
  show self.answer world {} (.serving q) d = (.ok a, _)
  unfold answer
  simp only [hbefore]
  exact htransaction

end

section
variable (world : World)

def sampleOther : ActionRequest := { sampleProposal with operation := "write" }

/-- The states that the sample transactions leave, whatever the limit on their size. -/
def sampleFirst : Machine :=
  (outcome (SQLiteControlPlane.transacted world ⟨"key", "id", 9, 0⟩
    (serve world (.evaluate sampleAgent sampleProposal))) (sampleOpened world)).2

def sampleSecond : Machine :=
  (outcome (SQLiteControlPlane.transacted world ⟨"key", "id", 9, 0⟩
    (serve world (.evaluate sampleAgent sampleOther))) (sampleFirst world)).2

/-- A store with room for the sample states. -/
def sampleStore : SQLiteControlPlane :=
  ⟨"key", "id", 9, sampleSize (sampleOpened world) 1+sampleSize (sampleFirst world) 2+
    sampleSize (sampleSecond world) 3⟩

end

theorem sampleStore_fits (world : World)
    (hopened : (AuthorityState.dump "id" ⟨(sampleOpened world).plane, 1⟩).plain = true)
    (hfirst : (AuthorityState.dump "id" ⟨(sampleFirst world).plane, 2⟩).plain = true)
    (hsecond : (AuthorityState.dump "id" ⟨(sampleSecond world).plane, 3⟩).plain = true) :
    (sampleStore world).Fits ⟨(sampleOpened world).plane, 1⟩ ∧
      (sampleStore world).Fits ⟨(sampleFirst world).plane, 2⟩ ∧
      (sampleStore world).Fits ⟨(sampleSecond world).plane, 3⟩ := by
  have hlimit : (sampleStore world).maxStateBytes = sampleSize (sampleOpened world) 1+
    sampleSize (sampleFirst world) 2+sampleSize (sampleSecond world) 3 := rfl
  refine ⟨⟨hopened, ?_⟩, ⟨hfirst, ?_⟩, ⟨hsecond, ?_⟩⟩ <;> rw [hlimit]
  · exact (Nat.le_add_right _ _).trans (Nat.le_add_right _ _)
  · exact (Nat.le_add_left _ _).trans (Nat.le_add_right _ _)
  · exact Nat.le_add_left _ _

/-- A world whose clock jumps by ten minutes. -/
def sampleLater : World :=
  { sampleWorld with clock := fun k => if k<6 then ⟨0, Instant.zero_range⟩
      else ⟨600000000, Instant.minutes_range⟩ }

/-- After ten minutes, the database decides anew under a key that it has answered before. -/
theorem key_rebound : ∃ d d' d'' decision decision',
    StoreRun sampleLater (sampleStore sampleLater) {}
      [⟨sampleStore sampleLater, .opening true, .ok .done⟩] d ∧
    (sampleStore sampleLater).Store sampleLater d
      ⟨sampleStore sampleLater, .serving (.evaluate sampleAgent sampleProposal), .ok (.decided decision)⟩
      d' ∧
    (sampleStore sampleLater).Store sampleLater d'
      ⟨sampleStore sampleLater, .serving (.evaluate sampleAgent sampleOther), .ok (.decided decision')⟩
      d'' ∧
    sampleOther.tenantId=sampleProposal.tenantId ∧
    sampleOther.idempotencyKey=sampleProposal.idempotencyKey ∧ decision'≠decision := by
  have hverify : ∀ seed text, sampleLater.crypto.verify (sampleLater.crypto.publicKey seed) text
    (sampleLater.crypto.sign seed text) = true := fun _ _ => decide_eq_true rfl
  obtain ⟨hopened, hfirst, hsecond⟩ := sampleStore_fits sampleLater (by decide +kernel)
    (by decide +kernel) (by decide +kernel)
  have hdecided : outcome ((sampleStore sampleLater).transacted sampleLater
    (serve sampleLater (.evaluate sampleAgent sampleProposal))) (sampleOpened sampleLater) =
      (.ok (.decided _), sampleFirst sampleLater) := rfl
  have hanew : outcome ((sampleStore sampleLater).transacted sampleLater
    (serve sampleLater (.evaluate sampleAgent sampleOther))) (sampleFirst sampleLater) =
      (.ok (.decided _), sampleSecond sampleLater) := rfl
  have hstart : outcome ((sampleStore sampleLater).transacted sampleLater (pure ControlResponse.done)) {} =
    (.ok .done, sampleOpened sampleLater) := rfl
  obtain ⟨d, hopen, hd⟩ := opening_at hstart hopened
  obtain ⟨d', hstep, hd'⟩ := serving_at hverify hd rfl hdecided hfirst
  obtain ⟨d'', hstep', _⟩ := serving_at hverify hd' rfl hanew hsecond
  refine ⟨d, d', d'', _, _, .single hopen, hstep, hstep', rfl, rfl, fun h => ?_⟩
  have haudit := congrArg DecisionResponse.auditId h
  revert haudit
  decide +kernel

theorem ControlPlane.idempotency_keys_sample : ∃ v v' response decision epoch,
    KeyAnswers sampleWorld "id" v v' response sampleAgent sampleProposal
      (sampleWorld.crypto.actionDigest sampleProposal) epoch ((sampleWorld.clock 0).later (seconds 300))
      decision := by
  have hverify : ∀ seed text, sampleWorld.crypto.verify (sampleWorld.crypto.publicKey seed) text
    (sampleWorld.crypto.sign seed text) = true := fun _ _ => decide_eq_true rfl
  obtain ⟨hopened, hfirst, _⟩ := sampleStore_fits sampleWorld (by decide +kernel)
    (by decide +kernel) (by decide +kernel)
  have hstart : outcome ((sampleStore sampleWorld).transacted sampleWorld (pure ControlResponse.done)) {} =
    (.ok .done, sampleOpened sampleWorld) := rfl
  have hdecided : outcome ((sampleStore sampleWorld).transacted sampleWorld
    (serve sampleWorld (.evaluate sampleAgent sampleProposal))) (sampleOpened sampleWorld) =
      (.ok (.decided _), sampleFirst sampleWorld) := rfl
  obtain ⟨d, hopen, hd⟩ := opening_at hstart hopened
  obtain ⟨v, hstep, hv⟩ := serving_at hverify hd rfl hdecided hfirst
  obtain ⟨response, v', hlast⟩ := answered (.serving (.evaluate sampleAgent sampleProposal)) v
  obtain ⟨decision, hdecision⟩ : ∃ decision, Decided sampleWorld (d.opened sampleWorld "id")
      (.evaluate sampleAgent sampleProposal) sampleAgent sampleProposal decision := by
    have hmachine := hd.saved.opened
    rw [hd.readings, hd.identifiers] at hmachine
    have hdecides : ∃ decision, (outcome (ControlPlane.evaluate sampleWorld sampleAgent sampleProposal)
      ⟨(sampleOpened sampleWorld).plane.unexpired (sampleWorld.clock (sampleOpened sampleWorld).readings),
        (sampleOpened sampleWorld).readings+1, (sampleOpened sampleWorld).identifiers⟩).1 =
      .ok decision := ⟨_, rfl⟩
    rw [← hmachine] at hdecides
    obtain ⟨decision, hdecision⟩ := hdecides
    exact ⟨decision, rfl, hdecision, Or.inr rfl⟩
  obtain ⟨credential, k, _, _, _, hanswers⟩ := (ControlPlane.idempotency_keys sampleWorld hverify rfl rfl
    rfl rfl).2 (sampleStore sampleWorld) _ d _ _ v _ v _ _ (.single hopen) hstep hdecision (.nil _) hlast
  have hlive : (sampleWorld.clock 0).micros < ((sampleWorld.clock 0).later (seconds 300)).micros := by
    decide
  exact ⟨v, v', response, decision, _, hanswers fun _ _ _ => hlive⟩

end TraceGuard
