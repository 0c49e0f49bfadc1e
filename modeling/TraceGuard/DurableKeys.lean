import TraceGuard.StorageRefinement
import TraceGuard.KeyBinding

/-! Idempotency keys in the database. A receipt is pruned once it has expired, and then its key is free;
until then the key is bound as it is in memory. -/
namespace TraceGuard
open Stateful Traces ControlPlane ExecutionAuthority

namespace ControlState
variable {s : ControlState}

theorem size_filter {κ α : Type} [LinearOrder κ] (m : SortedMap κ α) (p : κ → α → Bool) :
    (m.filter p).size≤ m.size := List.length_filter_le _ _

theorem within_unexpired {n : Nat} (t : Instant) (h : s.within n = true) :
    (s.unexpired t).within n = true := by
  simp only [within, Bool.and_eq_true, decide_eq_true_eq] at h ⊢
  obtain ⟨⟨⟨⟨⟨⟨⟨h1, h2⟩, h3⟩, h4⟩, h5⟩, h6⟩, h7⟩, h8⟩ := h
  exact ⟨⟨⟨⟨⟨⟨⟨(size_filter _ _).trans h1, (size_filter _ _).trans h2⟩, h3⟩, (size_filter _ _).trans h4⟩,
    h5⟩, h6⟩, h7⟩, h8⟩

/-- The state has passed a pruning with the bound. -/
structure Tidy (s : ControlState) (maxEntries : Nat) : Prop where
  readable : (s.executionIssued.values.any fun serialized => (grantExpiry serialized).isNone) = false
  bounded : s.within maxEntries = true

theorem Tidy.unexpired {n : Nat} (h : s.Tidy n) (t : Instant) : (s.unexpired t).Tidy n := by
  refine ⟨?_, within_unexpired t h.bounded⟩
  have hreadable := h.readable
  simp only [SortedMap.values, List.any_map, List.any_eq_false, Function.comp_apply] at hreadable ⊢
  exact fun e he => hreadable e (List.mem_filter.mp he).1

theorem receipt_unexpired {key : List String} {receipt : DecisionReceipt} {t : Instant}
    (h : s.idempotent.get? key = some receipt) (ht : t.micros < receipt.expiresAt.micros) :
    (s.unexpired t).idempotent.get? key = some receipt := by
  show (s.idempotent.filter _).get? key = _
  rw [SortedMap.get?_filter, h, Option.filter_some, if_pos (decide_eq_true ht)]

theorem review_of_unexpired {reviewId : String} {review : Review} {t : Instant}
    (h : (s.unexpired t).reviews.get? reviewId = some review) : s.reviews.get? reviewId = some review := by
  have h : (s.reviews.filter _).get? reviewId = some review := h
  rw [SortedMap.get?_filter] at h
  exact (Option.filter_eq_some_iff.mp h).1

end ControlState

variable {world : World} {self : SQLiteControlPlane} {m m' : Machine}

namespace SQLiteControlPlane

theorem prune_ok {r : Unit} (h : outcome (self.pruneAndBound world) m = (.ok r, m')) :
    m' = ⟨m.plane.unexpired (world.clock m.readings), m.readings+1, m.identifiers⟩ ∧
      m'.plane.Tidy self.maxEntries := by
  unfold pruneAndBound at h
  rw [now_bind] at h
  rcases inspect_bind h with ⟨_, _, he, _⟩ | ⟨_, hchecks, h⟩
  · cases he
  · obtain ⟨hreadable, hchecks⟩ := Raising.guard_ok hchecks
    obtain ⟨_, rfl⟩ := Prod.mk.inj h
    have hbounded : (m.plane.unexpired (world.clock m.readings)).within self.maxEntries = true := by
      by_contra hno
      rw [if_pos (by simpa using hno)] at hchecks
      cases hchecks
    refine ⟨rfl, ⟨?_, hbounded⟩⟩
    simp only [Bool.not_eq_true, SortedMap.values, List.any_map, List.any_eq_false,
      Function.comp_apply] at hreadable ⊢
    exact fun e he => hreadable e (List.mem_filter.mp he).1

theorem prune_tidy {s : ControlState} {readings identifiers : Nat} (h : s.Tidy self.maxEntries) :
    outcome (self.pruneAndBound world) ⟨s, readings, identifiers⟩ =
      (.ok (), ⟨s.unexpired (world.clock readings), readings+1, identifiers⟩) := by
  unfold pruneAndBound
  rw [now_bind, inspect, outcome_bind, outcome_check, if_neg (by simp [h.readable])]
  dsimp only
  rw [if_neg (by simp [ControlState.within_unexpired _ h.bounded])]
  rfl

/-- A transaction that commits has pruned before and after its operation. -/
theorem transacted_ok {α : Type} {operation : Operation α} {a : α}
    (h : outcome (self.transacted world operation) m = (.ok a, m')) :
    ∃ v, outcome operation ⟨m.plane.unexpired (world.clock m.readings), m.readings+1, m.identifiers⟩ =
        (.ok a, v) ∧
      m' = ⟨v.plane.unexpired (world.clock v.readings), v.readings+1, v.identifiers⟩ ∧
      m'.plane.Tidy self.maxEntries := by
  unfold transacted at h
  rcases bind_cases h with ⟨_, _, he⟩ | ⟨_, u, hfirst, h⟩
  · cases he
  · obtain ⟨rfl, _⟩ := prune_ok hfirst
    rcases bind_cases h with ⟨_, _, he⟩ | ⟨a', v, hoperation, h⟩
    · cases he
    · rcases bind_cases h with ⟨_, _, he⟩ | ⟨_, w, hlast, h⟩
      · cases he
      · obtain ⟨ha, rfl⟩ := Prod.mk.inj h
        cases ha
        exact ⟨v, hoperation, prune_ok hlast⟩

/-- The answers of instances with one configuration. -/
def Store (world : World) (self : SQLiteControlPlane) (d : Durable) (e : DurableEvent) (d' : Durable) :
    Prop :=
  e.plane=self ∧ DurableStep world self.signingKey self.keyId d e d'

abbrev StoreRun (world : World) (self : SQLiteControlPlane) :
    Durable → List DurableEvent → Durable → Prop := Run (self.Store world)

/-- An operation that the database serves. -/
def Serves (world : World) (self : SQLiteControlPlane) (d : Durable) (e : ControlEvent) (d' : Durable) :
    Prop :=
  self.Store world d ⟨self, .serving e.1, e.2⟩ d'

end SQLiteControlPlane

open SQLiteControlPlane

/-- The database holds the state, as the last commit of the store left it. -/
structure Durable.Saved (d : Durable) (world : World) (store : SQLiteControlPlane) (s : ControlState)
    (commits : Nat) : Prop where
  row : ∃ row, d.row=some row ∧ store.save world ⟨s, commits⟩ = .ok row
  tidy : s.Tidy store.maxEntries

theorem Durable.Saved.state {d : Durable} {s : ControlState} {n : Nat} (h : d.Saved world self s n) :
    d.state self.keyId = some ⟨s, n⟩ := by
  obtain ⟨row, hrow, hsave⟩ := h.row
  have hloads := Json.loads_dumps (save_ok hsave).1
  rw [Durable.state, hrow]
  simp only [Option.bind_eq_bind, Option.bind_some, hloads, AuthorityState.load_dump]
  rfl

section
variable (hverify : ∀ seed text, world.crypto.verify (world.crypto.publicKey seed) text
  (world.crypto.sign seed text) = true)
include hverify

theorem begin_of_saved {d : Durable} {s : ControlState} {n : Nat} (allowInitialize : Bool)
    (memory : AuthorityState) (hd : d.Saved world self s n) :
    self.begin world allowInitialize memory d.row = .ok ⟨s, n⟩ := by
  obtain ⟨row, hrow, hsave⟩ := hd.row
  rw [hrow, begin_saved hverify rfl rfl hsave, if_neg (not_lt.mpr (save_ok hsave).2.2)]

/-- A transaction from a saved state raises, or runs its operation on that state. -/
theorem transaction_saved {α : Type} {allowInitialize : Bool} {operation : Operation α}
    {memory : AuthorityState} {d d' : Durable} {s : ControlState} {n : Nat}
    {r : Except ServiceError α} (forward : Forward operation) (hd : d.Saved world self s n)
    (h : self.transaction world allowInitialize operation memory d = (r, d')) :
    ((∃ e, r = .error e) ∧ d'.row=d.row ∧ d.readings ≤ d'.readings) ∨
      ∃ a v, r = .ok a ∧
        outcome operation ⟨s.unexpired (world.clock d.readings), d.readings+1, d.identifiers⟩ =
          (.ok a, v) ∧
        d'.readings=v.readings+1 ∧
        d'.Saved world self (v.plane.unexpired (world.clock v.readings)) (n+1) := by
  rcases transaction_cases forward h with ⟨he, hrow, hreadings, _⟩ |
    ⟨before, m', row, hbegin, hop, hok, hsave, rfl⟩
  · exact Or.inl ⟨he, hrow, hreadings⟩
  · rw [begin_of_saved hverify allowInitialize memory hd] at hbegin
    obtain rfl := (Except.ok.inj hbegin).symm
    cases r with
    | error e => cases hok
    | ok a =>
      obtain ⟨v, hoperation, rfl, htidy⟩ := transacted_ok hop
      exact Or.inr ⟨a, v, rfl, hoperation, rfl, ⟨row, rfl, hsave⟩, htidy⟩

theorem store_cases {d d' : Durable} {e : DurableEvent} {s : ControlState} {n : Nat}
    (h : self.Store world d e d') (hd : d.Saved world self s n) :
    ((∃ error, e.response = .error error) ∧ d'.row=d.row ∧ d.readings ≤ d'.readings) ∨
      ∃ a v, e.response = .ok a ∧
        outcome (e.request.operation world) ⟨s.unexpired (world.clock d.readings), d.readings+1,
          d.identifiers⟩ = (.ok a, v) ∧
        d'.readings=v.readings+1 ∧
        d'.Saved world self (v.plane.unexpired (world.clock v.readings)) (n+1) := by
  obtain ⟨rfl, _, _, memory, h⟩ := h
  rcases answer_cases h with ⟨he, rfl⟩ | ⟨allowInitialize, memory', _, h⟩
  · exact Or.inl ⟨he, rfl, le_rfl⟩
  · exact transaction_saved hverify (forward_operation _) hd h

/-- An operation that raises on the pruned state makes its transaction raise. -/
theorem transaction_raises {allowInitialize : Bool} {operation : Operation ControlResponse}
    {memory : AuthorityState} {d : Durable} {s : ControlState} {n : Nat} {w : Machine} {e : ServiceError}
    (hd : d.Saved world self s n)
    (h : outcome operation ⟨s.unexpired (world.clock d.readings), d.readings+1, d.identifiers⟩ =
      (.error e, w)) :
    self.transaction world allowInitialize operation memory d =
      (.error e, ⟨d.row, w.readings, w.identifiers⟩) := by
  have hop : outcome (self.transacted world operation) ⟨s, d.readings, d.identifiers⟩ = (.error e, w) := by
    rw [transacted, outcome_bind, prune_tidy hd.tidy]
    exact outcome_bind_error h
  rw [transaction, begin_of_saved hverify allowInitialize memory hd]
  simp only [hop]

end

theorem store_readings {d d' : Durable} {e : DurableEvent} (h : self.Store world d e d') :
    d.readings ≤ d'.readings := by
  obtain ⟨rfl, _, _, memory, h⟩ := h
  rcases answer_cases h with ⟨_, rfl⟩ | ⟨allowInitialize, memory', _, h⟩
  · exact le_rfl
  · have hforward : Forward (e.request.operation world) := forward_operation e.request
    rcases transaction_cases hforward h with ⟨_, _, hreadings, _⟩ | ⟨before, m', row, _, hop, _, _, rfl⟩
    · exact hreadings
    · have hlater : Forward (e.plane.transacted world (e.request.operation world)) :=
        forward_transacted hforward
      have hlater := hlater ⟨before.plane, d.readings, d.identifiers⟩
      rw [hop] at hlater
      exact hlater.1

theorem storeRun_readings {d d' : Durable} {es : List DurableEvent} (h : StoreRun world self d es d') :
    d.readings ≤ d'.readings := by
  induction h with
  | nil => exact le_rfl
  | snoc past last ih => exact ih.trans (store_readings last)

section
variable (hverify : ∀ seed text, world.crypto.verify (world.crypto.publicKey seed) text
  (world.crypto.sign seed text) = true)
include hverify

/-- A receipt outlives every transaction whose readings of the clock come before its expiry. -/
theorem receipt_store {d d' : Durable} {e : DurableEvent} {s : ControlState} {n : Nat}
    {key : List String} {receipt : DecisionReceipt} (hd : d.Saved world self s n)
    (hget : s.idempotent.get? key = some receipt) (h : self.Store world d e d')
    (hlive : ∀ j, d.readings ≤ j → j<d'.readings →
      (world.clock j).micros < receipt.expiresAt.micros) :
    ∃ s' n', d'.Saved world self s' n' ∧ s'.idempotent.get? key = some receipt := by
  have hforward : Forward (e.request.operation world) := forward_operation e.request
  have hforward := hforward ⟨s.unexpired (world.clock d.readings), d.readings+1, d.identifiers⟩
  rcases store_cases hverify h hd with ⟨_, hrow, _⟩ | ⟨a, v, _, hop, hreadings, hsaved⟩
  · exact ⟨s, n, ⟨hrow ▸ hd.row, hd.tidy⟩, hget⟩
  · rw [hop] at hforward
    have hfirst : d.readings+1 ≤ v.readings := hforward.1
    have hpruned := ControlState.receipt_unexpired hget (hlive d.readings le_rfl (by omega))
    refine ⟨_, _, hsaved, ControlState.receipt_unexpired ?_ (hlive v.readings (by omega) (by omega))⟩
    cases hq : e.request with
    | opening allowInitialize =>
      rw [hq] at hop
      obtain ⟨_, rfl⟩ := Prod.mk.inj hop
      exact hpruned
    | serving q =>
      rw [hq] at hop
      have hstep : ControlStep world _ (q, .ok a) v := hop
      obtain ⟨_, _, hrun⟩ := hstep.changes
      exact receipt_run hrun hpruned

theorem receipt_storeRun {d d' : Durable} {es : List DurableEvent} {s : ControlState} {n : Nat}
    {key : List String} {receipt : DecisionReceipt} (h : StoreRun world self d es d')
    (hd : d.Saved world self s n) (hget : s.idempotent.get? key = some receipt)
    (hlive : ∀ j, d.readings ≤ j → j<d'.readings →
      (world.clock j).micros < receipt.expiresAt.micros) :
    ∃ s' n', d'.Saved world self s' n' ∧ s'.idempotent.get? key = some receipt := by
  induction h with
  | nil => exact ⟨s, n, hd, hget⟩
  | snoc past last ih =>
    have hlast := store_readings last
    obtain ⟨s', n', hsaved, hkept⟩ := ih fun j hj hjt => hlive j hj (hjt.trans_le hlast)
    exact receipt_store hverify hsaved hkept last fun j hj => hlive j ((storeRun_readings past).trans hj)

end

/-- The machine on which the database's next transaction runs its operation. -/
def Durable.opened (d : Durable) (world : World) (keyId : String) : Machine :=
  ⟨(((d.state keyId).map AuthorityState.plane).getD {}).unexpired (world.clock d.readings), d.readings+1,
    d.identifiers⟩

theorem Durable.Saved.opened {d : Durable} {s : ControlState} {n : Nat} (h : d.Saved world self s n) :
    d.opened world self.keyId = ⟨s.unexpired (world.clock d.readings), d.readings+1, d.identifiers⟩ := by
  rw [Durable.opened, h.state]
  rfl

/-- What the database answers to an evaluation under a bound key. -/
structure KeyAnswers (world : World) (keyId : String) (d d' : Durable)
    (response : Except ServiceError ControlResponse) (actor : Actor) (action : ActionRequest)
    (digest : String) (epoch : Nat) (expires : Instant) (decision : DecisionResponse) : Prop where
  same : ∀ a, response = .ok a → a = .decided decision
  conflict : ∀ credential,
    agentCredential (d.opened world keyId).plane actor action = .ok credential →
    digest≠world.crypto.actionDigest action ∨
      epoch≠(d.opened world keyId).plane.epoch action.tenantId ∨
      expires.micros ≤ (world.clock (d.readings+1)).micros →
    ∃ message, response = .error (.conflict message)
  unrecorded : ∀ s', d'.state keyId = some s' → ∃ s, d.state keyId = some s ∧
    s'.plane.audits=s.plane.audits ∧
    ∀ reviewId review, s'.plane.reviews.get? reviewId = some review →
      s.plane.reviews.get? reviewId = some review

section
variable (hverify : ∀ seed text, world.crypto.verify (world.crypto.publicKey seed) text
  (world.crypto.sign seed text) = true)
include hverify

theorem keyAnswers_of_bound {d d' : Durable} {s : ControlState} {n : Nat} {actor : Actor}
    {action : ActionRequest} {response : Except ServiceError ControlResponse} {digest : String}
    {epoch : Nat} {expires : Instant} {decision : DecisionResponse}
    (h : self.Store world d ⟨self, .serving (.evaluate actor action), response⟩ d')
    (hd : d.Saved world self s n)
    (hbound : KeyBound world (d.opened world self.keyId) actor action digest epoch expires decision) :
    KeyAnswers world self.keyId d d' response actor action digest epoch expires decision := by
  have hopened := hd.opened
  obtain ⟨hsame, hunchanged, hconflict⟩ := hbound
  rw [hopened] at hsame hunchanged hconflict
  have hserve : outcome (serve world (.evaluate actor action))
      ⟨s.unexpired (world.clock d.readings), d.readings+1, d.identifiers⟩ = (Except.map .decided _, _) :=
    outcome_map _ _ _
  rcases store_cases hverify h hd with ⟨⟨e, he⟩, hrow, _⟩ | ⟨a, v, ha, hop, _, hsaved⟩
  · obtain rfl : response = .error e := he
    have hstill : d'.state self.keyId = some ⟨s, n⟩ := (Durable.Saved.mk (hrow ▸ hd.row) hd.tidy).state
    refine ⟨fun a ha => (by cases ha), fun credential hauth hstale => ?_, fun s' hs' => ?_⟩
    · rw [hopened] at hauth hstale
      obtain ⟨message, hmessage⟩ := hconflict credential hauth hstale
      obtain ⟨_, _, _, memory, h⟩ := h
      have h : self.transaction world false (serve world (.evaluate actor action)) memory d =
        (.error e, d') := h
      obtain ⟨w, hraised⟩ : ∃ w, outcome (serve world (.evaluate actor action))
          ⟨s.unexpired (world.clock d.readings), d.readings+1, d.identifiers⟩ =
          (.error (.conflict message), w) := ⟨_, by rw [hserve, hmessage]; rfl⟩
      rw [transaction_raises hverify hd hraised] at h
      exact ⟨message, (Prod.mk.inj h).1.symm⟩
    · rw [hstill] at hs'
      cases hs'
      exact ⟨⟨s, n⟩, hd.state, rfl, fun _ _ hget => hget⟩
  · obtain rfl : response = .ok a := ha
    have hop : outcome (serve world (.evaluate actor action))
      ⟨s.unexpired (world.clock d.readings), d.readings+1, d.identifiers⟩ = (.ok a, v) := hop
    rw [hserve] at hop
    obtain ⟨hresult, rfl⟩ := Prod.mk.inj hop
    obtain ⟨d'', hevaluated, rfl⟩ := Raising.map_ok hresult
    refine ⟨fun a ha => ?_, fun credential hauth hstale => ?_, fun s' hs' => ?_⟩
    · cases ha
      rw [hsame d'' hevaluated]
    · rw [hopened] at hauth hstale
      obtain ⟨message, hmessage⟩ := hconflict credential hauth hstale
      rw [hmessage] at hevaluated
      cases hevaluated
    · rw [hsaved.state] at hs'
      cases hs'
      refine ⟨⟨s, n⟩, hd.state, ?_, fun reviewId review hget => ?_⟩
      · show (outcome (ControlPlane.evaluate world actor action) _).2.plane.audits = s.audits
        rw [hunchanged]
        rfl
      · have hget := ControlState.review_of_unexpired hget
        rw [hunchanged] at hget
        exact ControlState.review_of_unexpired hget

end

theorem lifetimes_unexpired (h : Lifetimes world m) (t : Instant) (identifiers : Nat) :
    Lifetimes world ⟨m.plane.unexpired t, m.readings+1, identifiers⟩ := by
  intro key receipt hget
  have hget : (m.plane.idempotent.filter _).get? key = some receipt := hget
  rw [SortedMap.get?_filter] at hget
  obtain ⟨k, hk, hexpires⟩ := h key receipt (Option.filter_eq_some_iff.mp hget).1
  exact ⟨k, hk.trans (Nat.lt_succ_self _), hexpires⟩

/-- What every operation keeps, and also the drawing of numbers and the pruning. -/
structure CommitLaw (world : World) (P : Machine → Prop) : Prop where
  step : ∀ m e m', ControlStep world m e m' → P m → P m'
  pruned : ∀ m t, P m → P ⟨m.plane.unexpired t, m.readings+1, m.identifiers⟩
  drawn : ∀ m readings identifiers, P m → m.readings ≤ readings → m.identifiers ≤ identifiers →
    P ⟨m.plane, readings, identifiers⟩

/-- It holds of the empty state as well. -/
structure DurableLaw (world : World) (P : Machine → Prop) : Prop extends CommitLaw world P where
  empty : ∀ readings identifiers, P ⟨{}, readings, identifiers⟩

theorem CommitLaw.transacted {P : Machine → Prop} {q : DurableRequest} {a : ControlResponse}
    (law : CommitLaw world P) (hm : P m)
    (h : outcome (self.transacted world (q.operation world)) m = (.ok a, m')) : P m' := by
  obtain ⟨v, hop, rfl, _⟩ := transacted_ok h
  refine law.pruned _ _ ?_
  have hpruned := law.pruned m (world.clock m.readings) hm
  cases q with
  | opening allowInitialize =>
    obtain ⟨_, rfl⟩ := Prod.mk.inj hop
    exact hpruned
  | serving q =>
    have hstep : ControlStep world _ (q, .ok a) v := hop
    exact law.step _ _ _ hstep hpruned

/-- The database holds a state that has the property. -/
def Durable.Keeps (d : Durable) (world : World) (store : SQLiteControlPlane) (P : Machine → Prop) :
    Prop :=
  ∃ s n, d.Saved world store s n ∧ P ⟨s, d.readings, d.identifiers⟩

theorem Durable.Saved.unique {d : Durable} {s s' : ControlState} {n n' : Nat}
    (h : d.Saved world self s n) (h' : d.Saved world self s' n') : s'=s := by
  have hstate := h'.state
  rw [h.state] at hstate
  exact congrArg AuthorityState.plane (Option.some.inj hstate).symm

theorem Durable.Saved.keeps {P : Machine → Prop} {d : Durable} {s : ControlState} {n : Nat}
    (h : d.Saved world self s n) (hd : d.row=none ∨ d.Keeps world self P) :
    P ⟨s, d.readings, d.identifiers⟩ := by
  rcases hd with hnone | ⟨s', n', hsaved, hkeeps⟩
  · obtain ⟨row, hrow, _⟩ := h.row
    rw [hnone] at hrow
    cases hrow
  · exact h.unique hsaved ▸ hkeeps

/-- A transaction whose state before has the property leaves the row, or a state with the property. -/
theorem CommitLaw.answered {P : Machine → Prop} (law : CommitLaw world P) {d d' : Durable}
    {e : DurableEvent} (hbefore : ∀ allowInitialize memory before,
      (allowInitialize = true → memory = {}) → self.begin world allowInitialize memory d.row = .ok before →
      P ⟨before.plane, d.readings, d.identifiers⟩)
    (h : self.Store world d e d') :
    (d'.row=d.row ∧ d.readings ≤ d'.readings ∧ d.identifiers ≤ d'.identifiers) ∨
      d'.Keeps world self P := by
  obtain ⟨rfl, _, _, memory, h⟩ := h
  rcases answer_cases h with ⟨_, rfl⟩ | ⟨allowInitialize, memory', hmemory, h⟩
  · exact Or.inl ⟨rfl, le_rfl, le_rfl⟩
  · rcases transaction_cases (forward_operation _) h with ⟨_, hrow, hreadings, hidentifiers⟩ |
      ⟨before, m', row, hbegin, hop, hok, hsave, rfl⟩
    · exact Or.inl ⟨hrow, hreadings, hidentifiers⟩
    · obtain ⟨_, _, response⟩ := e
      cases response with
      | error e => cases hok
      | ok a =>
        obtain ⟨_, _, _, htidy⟩ := transacted_ok hop
        have hholds := law.transacted (hbefore _ _ _ hmemory hbegin) hop
        exact Or.inr ⟨_, _, ⟨⟨row, rfl, hsave⟩, htidy⟩, hholds⟩

section
variable (hverify : ∀ seed text, world.crypto.verify (world.crypto.publicKey seed) text
  (world.crypto.sign seed text) = true)
include hverify

theorem CommitLaw.store {P : Machine → Prop} (law : CommitLaw world P) {d d' : Durable}
    {e : DurableEvent} (hd : d.Keeps world self P) (h : self.Store world d e d') :
    d'.Keeps world self P := by
  obtain ⟨s, n, hsaved, hholds⟩ := hd
  have hbefore : ∀ allowInitialize memory before, (allowInitialize = true → memory = {}) →
      self.begin world allowInitialize memory d.row = .ok before →
      P ⟨before.plane, d.readings, d.identifiers⟩ := fun allowInitialize memory before _ hbegin => by
    rw [begin_of_saved hverify allowInitialize memory hsaved] at hbegin
    obtain rfl := Except.ok.inj hbegin
    exact hholds
  rcases law.answered hbefore h with ⟨hrow, hreadings, hidentifiers⟩ | hkeeps
  · exact ⟨s, n, ⟨hrow ▸ hsaved.row, hsaved.tidy⟩, law.drawn _ _ _ hholds hreadings hidentifiers⟩
  · exact hkeeps

theorem CommitLaw.run {P : Machine → Prop} (law : CommitLaw world P) {es : List DurableEvent}
    {d d' : Durable} (hd : d.Keeps world self P) (h : StoreRun world self d es d') :
    d'.Keeps world self P :=
  Run.invariant (I := fun _ d => d.Keeps world self P) hd
    (fun _ _ _ _ _ ih hstep => law.store hverify ih hstep) h

theorem DurableLaw.store {P : Machine → Prop} (law : DurableLaw world P) {d d' : Durable}
    {e : DurableEvent} (hd : d.row=none ∨ d.Keeps world self P) (h : self.Store world d e d') :
    d'.row=none ∨ d'.Keeps world self P := by
  rcases hd with hnone | hkeeps
  · have hbefore : ∀ allowInitialize memory before, (allowInitialize = true → memory = {}) →
        self.begin world allowInitialize memory d.row = .ok before →
        P ⟨before.plane, d.readings, d.identifiers⟩ := fun allowInitialize memory before hm hbegin => by
      rw [hnone] at hbegin
      cases allowInitialize with
      | false => cases hbegin
      | true =>
        obtain rfl := Except.ok.inj hbegin
        rw [hm rfl]
        exact law.empty _ _
    exact (law.toCommitLaw.answered hbefore h).imp_left fun hstill => hstill.1.trans hnone
  · exact Or.inr (law.toCommitLaw.store hverify hkeeps h)

theorem DurableLaw.run {P : Machine → Prop} (law : DurableLaw world P) {es : List DurableEvent}
    {d : Durable} (h : StoreRun world self {} es d) : d.row=none ∨ d.Keeps world self P :=
  Run.invariant (I := fun _ d => d.row=none ∨ d.Keeps world self P) (Or.inl rfl)
    (fun _ _ _ _ _ ih hstep => law.store hverify ih hstep) h

end

/-- The receipts of the database have their lifetimes from readings of the past. -/
theorem lifetimes_law : DurableLaw world (Lifetimes world) where
  empty := lifetimes_empty
  step _ _ _ hstep h := by
    obtain ⟨_, _, hrun⟩ := ControlStep.changes hstep
    exact h.run hrun
  pruned _ t h := lifetimes_unexpired h t _
  drawn _ _ _ h hreadings _ key receipt hget := by
    obtain ⟨k, hk, hexpires⟩ := h key receipt hget
    exact ⟨k, hk.trans_le hreadings, hexpires⟩

/-- An operation needs a database that holds a state. -/
theorem serving_stored {d d' : Durable} {q : ControlRequest} {a : ControlResponse}
    (h : self.Store world d ⟨self, .serving q, .ok a⟩ d') : d.row≠none := by
  intro hrow
  obtain ⟨_, _, _, memory, h⟩ := h
  change self.answer world memory (.serving q) d = (.ok a, d') at h
  unfold answer at h
  cases hbefore : beforeTransaction world q with
  | error e =>
    simp only [hbefore] at h
    cases (Prod.mk.inj h).1
  | ok _ =>
    simp only [hbefore, transaction, hrow, begin] at h
    cases (Prod.mk.inj h).1

/-- In the database, a key stays bound until a transaction reads the clock at its receipt's expiry. -/
theorem SQLiteControlPlane.key_bound
    (hverify : ∀ seed text, world.crypto.verify (world.crypto.publicKey seed) text
      (world.crypto.sign seed text) = true)
    {es fs : List DurableEvent} {d d' v v' : Durable} {q : ControlRequest} {a : ControlResponse}
    {actor actor' : Actor} {action action' : ActionRequest} {decision : DecisionResponse}
    {response : Except ServiceError ControlResponse}
    (h : StoreRun world self {} es d) (hstep : self.Store world d ⟨self, .serving q, .ok a⟩ d')
    (hd : Decided world (d.opened world self.keyId) q actor action decision)
    (hrest : StoreRun world self d' fs v)
    (hlast : self.Store world v ⟨self, .serving (.evaluate actor' action'), response⟩ v')
    (htenant : action'.tenantId=action.tenantId) (hsubject : actor'.subject=actor.subject)
    (hcredential : actor'.serviceKeyId=actor.serviceKeyId)
    (hkey : action'.idempotencyKey=action.idempotencyKey) :
    ∃ credential k, actor.serviceKeyId = some credential ∧ k<d'.readings ∧
      ((d.opened world self.keyId).plane.idempotent.get? (receiptKey actor credential action) = none →
        d.readings < k) ∧
      ((∀ j, k<j → j ≤ v.readings →
          (world.clock j).micros < ((world.clock k).later (seconds 300)).micros) →
        KeyAnswers world self.keyId v v' response actor' action' (world.crypto.actionDigest action)
          ((d.opened world self.keyId).plane.epoch action.tenantId)
          ((world.clock k).later (seconds 300)) decision) := by
  rcases lifetimes_law.run hverify h with hnone | ⟨s, n, hsaved, hlifetimes⟩
  · exact absurd hnone (serving_stored hstep)
  · rcases store_cases hverify hstep hsaved with ⟨⟨_, he⟩, _⟩ | ⟨a', u, ha, hop, hreadings, hsaved'⟩
    · cases he
    · obtain rfl := Except.ok.inj ha
      rw [← hsaved.opened] at hop
      have hop : outcome (serve world q) (d.opened world self.keyId) = (.ok a, u) := hop
      have hserve : ControlStep world (d.opened world self.keyId) (q, .ok a) u := hop
      have hopened : Lifetimes world (d.opened world self.keyId) :=
        hsaved.opened ▸ lifetimes_unexpired hlifetimes _ _
      obtain ⟨credential, receipt, k, hactor, hget, hanswers, hk, hfresh, hexpires⟩ :=
        hd.lifetime hserve hopened
      have hopening : (d.opened world self.keyId).readings=d.readings+1 := rfl
      refine ⟨credential, k, hactor, by omega, fun hnone => by have := hfresh hnone; omega,
        fun hlive => ?_⟩
      rw [← hexpires] at hlive ⊢
      have hpast := storeRun_readings hrest
      have hkept := ControlState.receipt_unexpired hget (hlive u.readings hk (by omega))
      obtain ⟨s', n', hsaved'', hget'⟩ := receipt_storeRun hverify hrest hsaved' hkept
        fun j hj hjv => hlive j (by omega) hjv.le
      refine keyAnswers_of_bound hverify hlast hsaved'' ?_
      refine keyBound_of_receipt hactor ?_ hanswers htenant hsubject hcredential hkey
      rw [hsaved''.opened]
      exact ControlState.receipt_unexpired hget' (hlive v.readings (by omega) le_rfl)

end TraceGuard
