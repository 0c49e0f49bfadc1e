import TraceGuard.Storage
import TraceGuard.ExecutionRuns

/-! Runs of any number of instances over one database. They refine one control plane in memory that
runs the committed operations one after the other. -/
namespace Json

theorem dumps_sorted {style : Style} {v : Json} {written : String} (h : dumps style v = some written) :
    dumps style v.sorted = some written := by
  by_cases hp : v.plain = true
  · rw [dumps_plain hp] at h
    rw [dumps_plain (plain_sorted v hp), text, (canonical_sorted v).sorted_eq]
    exact h
  · rw [dumps, if_neg hp] at h
    cases h

end Json

namespace TraceGuard
open Stateful Traces ControlPlane ExecutionAuthority

/-- What an instance is asked: to open the database, or to run an operation. -/
inductive DurableRequest where
  | opening (allowInitialize : Bool)
  | serving (request : ControlRequest)

structure DurableEvent where
  plane : SQLiteControlPlane
  request : DurableRequest
  response : Except ServiceError ControlResponse

def DurableEvent.committed (e : DurableEvent) : Bool := e.response.isOk

section
variable (world : World)

/-- What a request is checked for before its transaction. -/
def beforeTransaction : ControlRequest → Except ServiceError Unit
  | .register _ _ registration => do
    if registration.authority.delegatedFields.entries≠[] then
      throw (.value "execution grants require an authenticated source adapter before delegation")
    let _ ← raise (CompiledAuthority.compile world.crypto registration.authority registration.toolSchemas)
  | .bindLegacyDomain _ _ _ domain fenced =>
    if fenced = false ∨ domain="" ∨ 128<domain.length then
      throw (.value "fenced workers and an approved migrated ledger are required")
    else return ()
  | _ => return ()

/-- The operation of a request's transaction. -/
def DurableRequest.operation : DurableRequest → Operation ControlResponse
  | .opening _ => pure .done
  | .serving q => serve world q

/-- An instance's answer. One that opens the database holds nothing yet. -/
def SQLiteControlPlane.answer (self : SQLiteControlPlane) (memory : AuthorityState) :
    DurableRequest → Durable → Except ServiceError ControlResponse × Durable
  | .opening allowInitialize, d => self.transaction world allowInitialize (pure .done) {} d
  | .serving q, d =>
    match beforeTransaction world q with
    | .error e => (.error e, d)
    | .ok _ => self.transaction world false (serve world q) memory d

/-- An answer of some instance with the key, whatever it held in memory. -/
def DurableStep (signingKey keyId : String) (d : Durable) (e : DurableEvent) (d' : Durable) : Prop :=
  e.plane.signingKey=signingKey ∧ e.plane.keyId=keyId ∧
    ∃ memory, e.plane.answer world memory e.request d = (e.response, d')

abbrev DurableRun (signingKey keyId : String) : Durable → List DurableEvent → Durable → Prop :=
  Run (DurableStep world signingKey keyId)

/-- The operation of one plane in memory, between two prunings and some time after the last one. -/
def SerialStep (m : Machine) (e : DurableEvent) (m' : Machine) : Prop :=
  ∃ readings identifiers, m.readings ≤ readings ∧ m.identifiers ≤ identifiers ∧
    outcome (e.plane.transacted world (e.request.operation world)) ⟨m.plane, readings, identifiers⟩ =
      (e.response, m')

abbrev SerialRun : Machine → List DurableEvent → Machine → Prop := Run (SerialStep world)

end

/-- The database holds the state after so many commits; before the first, it holds none. -/
structure Durable.Holds (d : Durable) (world : World) (signingKey keyId : String) (m : Machine)
    (commits : Nat) : Prop where
  readings : m.readings ≤ d.readings
  identifiers : m.identifiers ≤ d.identifiers
  stored : match d.row with
    | none => m.plane = {} ∧ commits=0
    | some row => commits≠0 ∧ ∃ self : SQLiteControlPlane, self.signingKey=signingKey ∧
      self.keyId=keyId ∧ self.save world ⟨m.plane, commits⟩ = .ok row

namespace SQLiteControlPlane
variable {world : World} {self : SQLiteControlPlane} {after : AuthorityState} {row : AuthorityRow}

theorem save_ok (h : self.save world after = .ok row) :
    canonical (after.dump self.keyId) = some row.body ∧
      row.signature = world.crypto.sign (self.stateSeed world) row.body ∧
      row.body.utf8ByteSize≤ self.maxStateBytes := by
  unfold save at h
  cases hbody : canonical (after.dump self.keyId) with
  | none => rw [hbody] at h; cases h
  | some body =>
    simp only [hbody] at h
    by_cases hsize : self.maxStateBytes < body.utf8ByteSize
    · rw [if_pos hsize] at h
      cases h
    · rw [if_neg hsize] at h
      cases h
      exact ⟨rfl, rfl, not_lt.mp hsize⟩

/-- A saved row is loaded again, by every instance with its key whose limit it is within. -/
theorem begin_saved {other : SQLiteControlPlane} {allowInitialize : Bool} {memory : AuthorityState}
    (hverify : ∀ seed text, world.crypto.verify (world.crypto.publicKey seed) text
      (world.crypto.sign seed text) = true)
    (hkey : other.signingKey=self.signingKey) (hid : other.keyId=self.keyId)
    (h : self.save world after = .ok row) :
    other.begin world allowInitialize memory (some row) =
      if other.maxStateBytes < row.body.utf8ByteSize then .error .capacity else .ok after := by
  obtain ⟨hbody, hsignature, _⟩ := save_ok h
  have hloads : Json.loads row.body = some (after.dump self.keyId).sorted := Json.loads_dumps hbody
  have hverified : world.crypto.verifyValue (world.crypto.publicKey (other.stateSeed world))
      (after.dump self.keyId).sorted row.signature = true := by
    rw [Crypto.verifyValue, canonical, Json.dumps_sorted hbody, hsignature, stateSeed, stateSeed, hkey]
    exact hverify _ _
  rw [begin, hloads]
  by_cases hsize : other.maxStateBytes < row.body.utf8ByteSize
  · rw [if_pos hsize, if_pos hsize]
  · rw [if_neg hsize, if_neg hsize]
    dsimp only
    rw [if_neg (by simp [hverified]), hid, AuthorityState.load_dump]

/-- The operation takes clock readings and identifiers in order. -/
def Forward {α : Type} (operation : Operation α) : Prop :=
  ∀ m, m.readings ≤ (outcome operation m).2.readings ∧ m.identifiers ≤ (outcome operation m).2.identifiers

theorem forward_pure {α : Type} (a : α) : Forward (pure a : Operation α) := fun _ => ⟨le_rfl, le_rfl⟩

theorem forward_bind {α β : Type} {x : Operation α} {f : α → Operation β} (hx : Forward x)
    (hf : ∀ a, Forward (f a)) : Forward (x >>= f) := by
  intro m
  obtain ⟨hreadings, hidentifiers⟩ := hx m
  rw [outcome_bind]
  match h : outcome x m with
  | (.error e, t) =>
    rw [h] at hreadings hidentifiers
    exact ⟨hreadings, hidentifiers⟩
  | (.ok a, t) =>
    rw [h] at hreadings hidentifiers
    exact ⟨hreadings.trans (hf a t).1, hidentifiers.trans (hf a t).2⟩

theorem forward_prune : Forward (self.pruneAndBound world) := by
  refine forward_bind (fun m => ⟨Nat.le_succ _, le_rfl⟩) fun t => forward_bind ?_ fun _ => ?_
  · intro m
    rw [inspect, outcome_check]
    exact ⟨le_rfl, le_rfl⟩
  · exact fun m => ⟨le_rfl, le_rfl⟩

theorem forward_transacted {α : Type} {operation : Operation α} (h : Forward operation) :
    Forward (self.transacted world operation) :=
  forward_bind forward_prune fun _ => forward_bind h fun a =>
    forward_bind forward_prune fun _ => forward_pure a

theorem forward_operation : (q : DurableRequest) → Forward (q.operation world)
  | .opening _ => forward_pure _
  | .serving q => fun m => by
    have hstep : ControlStep world m (q, (outcome (serve world q) m).1) (outcome (serve world q) m).2 := rfl
    obtain ⟨_, _, hrun⟩ := hstep.changes
    exact ⟨readings_run hrun, identifiers_run hrun⟩

theorem transaction_cases {α : Type} {allowInitialize : Bool} {operation : Operation α}
    {memory : AuthorityState} {d d' : Durable} {r : Except ServiceError α} (forward : Forward operation)
    (h : self.transaction world allowInitialize operation memory d = (r, d')) :
    ((∃ e, r = .error e) ∧ d'.row=d.row ∧ d.readings ≤ d'.readings ∧ d.identifiers ≤ d'.identifiers) ∨
      ∃ before m row, self.begin world allowInitialize memory d.row = .ok before ∧
        outcome (self.transacted world operation) ⟨before.plane, d.readings, d.identifiers⟩ = (r, m) ∧
        r.isOk = true ∧ self.save world ⟨m.plane, before.revision+1⟩ = .ok row ∧
        d' = ⟨some row, m.readings, m.identifiers⟩ := by
  unfold transaction at h
  cases hbegin : self.begin world allowInitialize memory d.row with
  | error e =>
    rw [hbegin] at h
    obtain ⟨rfl, rfl⟩ := Prod.mk.inj h
    exact Or.inl ⟨⟨e, rfl⟩, rfl, le_rfl, le_rfl⟩
  | ok before =>
    rw [hbegin] at h
    have hforward : Forward (self.transacted world operation) := forward_transacted forward
    have hforward := hforward ⟨before.plane, d.readings, d.identifiers⟩
    match hop : outcome (self.transacted world operation) ⟨before.plane, d.readings, d.identifiers⟩ with
    | (.error e, m) =>
      rw [hop] at hforward
      simp only [hop] at h
      obtain ⟨rfl, rfl⟩ := Prod.mk.inj h
      exact Or.inl ⟨⟨e, rfl⟩, rfl, hforward⟩
    | (.ok a, m) =>
      rw [hop] at hforward
      simp only [hop] at h
      cases hsave : self.save world ⟨m.plane, before.revision+1⟩ with
      | error e =>
        rw [hsave] at h
        obtain ⟨rfl, rfl⟩ := Prod.mk.inj h
        exact Or.inl ⟨⟨e, rfl⟩, rfl, hforward⟩
      | ok row =>
        rw [hsave] at h
        obtain ⟨rfl, rfl⟩ := Prod.mk.inj h
        exact Or.inr ⟨before, m, row, rfl, hop, rfl, hsave, rfl⟩

/-- An answer is refused outright, or it is that of a transaction. -/
theorem answer_cases {memory : AuthorityState} {q : DurableRequest} {d d' : Durable}
    {r : Except ServiceError ControlResponse} (h : self.answer world memory q d = (r, d')) :
    ((∃ e, r = .error e) ∧ d'=d) ∨ ∃ allowInitialize memory', (allowInitialize = true → memory' = {}) ∧
      self.transaction world allowInitialize (q.operation world) memory' d = (r, d') := by
  cases q with
  | opening allowInitialize => exact Or.inr ⟨allowInitialize, {}, fun _ => rfl, h⟩
  | serving q =>
    unfold answer at h
    cases hbefore : beforeTransaction world q with
    | error e =>
      simp only [hbefore] at h
      obtain ⟨rfl, rfl⟩ := Prod.mk.inj h
      exact Or.inl ⟨⟨e, rfl⟩, rfl⟩
    | ok _ =>
      simp only [hbefore] at h
      exact Or.inr ⟨false, memory, fun h => (by cases h), h⟩

/-- What a transaction starts from is what the database holds. -/
theorem begin_holds {signingKey keyId : String} {m : Machine} {n : Nat} {d : Durable}
    {allowInitialize : Bool} {memory before : AuthorityState}
    (hverify : ∀ seed text, world.crypto.verify (world.crypto.publicKey seed) text
      (world.crypto.sign seed text) = true)
    (hkey : self.signingKey=signingKey) (hid : self.keyId=keyId)
    (hmemory : allowInitialize = true → memory = {}) (hd : d.Holds world signingKey keyId m n)
    (h : self.begin world allowInitialize memory d.row = .ok before) : before=⟨m.plane, n⟩ := by
  have hstored := hd.stored
  cases hrow : d.row with
  | none =>
    rw [hrow] at h hstored
    obtain ⟨hplane, rfl⟩ := hstored
    cases allowInitialize with
    | false => cases h
    | true =>
      obtain rfl := Except.ok.inj h
      rw [hmemory rfl, hplane]
  | some row =>
    rw [hrow] at h hstored
    obtain ⟨_, other, hkey', hid', hsave⟩ := hstored
    rw [begin_saved hverify (hkey.trans hkey'.symm) (hid.trans hid'.symm) hsave] at h
    by_cases hsize : self.maxStateBytes < row.body.utf8ByteSize
    · rw [if_pos hsize] at h
      cases h
    · rw [if_neg hsize] at h
      exact (Except.ok.inj h).symm

theorem transaction_holds {α : Type} {signingKey keyId : String} {m : Machine} {n : Nat} {d d' : Durable}
    {allowInitialize : Bool} {memory : AuthorityState} {operation : Operation α} {r : Except ServiceError α}
    (hverify : ∀ seed text, world.crypto.verify (world.crypto.publicKey seed) text
      (world.crypto.sign seed text) = true)
    (hkey : self.signingKey=signingKey) (hid : self.keyId=keyId)
    (hmemory : allowInitialize = true → memory = {}) (forward : Forward operation)
    (hd : d.Holds world signingKey keyId m n)
    (h : self.transaction world allowInitialize operation memory d = (r, d')) :
    (r.isOk = false ∧ d'.row=d.row ∧ d'.Holds world signingKey keyId m n) ∨
      r.isOk = true ∧ ∃ m', outcome (self.transacted world operation)
          ⟨m.plane, d.readings, d.identifiers⟩ = (r, m') ∧
        d'.Holds world signingKey keyId m' (n+1) := by
  rcases transaction_cases forward h with ⟨⟨e, rfl⟩, hrow, hreadings, hidentifiers⟩ |
    ⟨before, m', row, hbegin, hop, hok, hsave, rfl⟩
  · refine Or.inl ⟨rfl, hrow, hd.readings.trans hreadings, hd.identifiers.trans hidentifiers, ?_⟩
    rw [hrow]
    exact hd.stored
  · obtain rfl := begin_holds hverify hkey hid hmemory hd hbegin
    exact Or.inr ⟨hok, m', hop, le_rfl, le_rfl, Nat.succ_ne_zero _, self, hkey, hid, hsave⟩

end SQLiteControlPlane

variable {world : World} {signingKey keyId : String}

/-- One answer: it raises and leaves the row, or commits the operation of the serial plane. -/
theorem DurableStep.holds {d d' : Durable} {e : DurableEvent} {m : Machine} {n : Nat}
    (hverify : ∀ seed text, world.crypto.verify (world.crypto.publicKey seed) text
      (world.crypto.sign seed text) = true)
    (h : DurableStep world signingKey keyId d e d') (hd : d.Holds world signingKey keyId m n) :
    (e.committed = false ∧ d'.row=d.row ∧ d'.Holds world signingKey keyId m n) ∨
      e.committed = true ∧ ∃ m', SerialStep world m e m' ∧ d'.Holds world signingKey keyId m' (n+1) := by
  obtain ⟨hkey, hid, memory, h⟩ := h
  have hforward : SQLiteControlPlane.Forward (e.request.operation world) :=
    SQLiteControlPlane.forward_operation e.request
  obtain ⟨self, request, response⟩ := e
  rcases SQLiteControlPlane.answer_cases h with ⟨⟨error, hr⟩, rfl⟩ | ⟨allowInitialize, memory', hmemory, h⟩
  · obtain rfl : response = .error error := hr
    exact Or.inl ⟨rfl, rfl, hd⟩
  · rcases SQLiteControlPlane.transaction_holds hverify hkey hid hmemory hforward hd h with
      hraised | ⟨hok, m', hop, hd'⟩
    · exact Or.inl hraised
    · exact Or.inr ⟨hok, m', ⟨d.readings, d.identifiers, hd.readings, hd.identifiers, hop⟩, hd'⟩

theorem DurableRun.serial {es : List DurableEvent} {d : Durable}
    (hverify : ∀ seed text, world.crypto.verify (world.crypto.publicKey seed) text
      (world.crypto.sign seed text) = true)
    (h : DurableRun world signingKey keyId {} es d) :
    ∃ m, SerialRun world {} (es.filter DurableEvent.committed) m ∧
      d.Holds world signingKey keyId m (es.filter DurableEvent.committed).length := by
  refine Run.invariant (I := fun es d => ∃ m, SerialRun world {} (es.filter DurableEvent.committed) m ∧
    d.Holds world signingKey keyId m (es.filter DurableEvent.committed).length) ?_ ?_ h
  · exact ⟨{}, .nil _, le_rfl, le_rfl, rfl, rfl⟩
  · intro es d e d' _ ⟨m, hrun, hd⟩ hstep
    rw [List.filter_append]
    rcases hstep.holds hverify hd with ⟨hraised, _, hd'⟩ | ⟨hcommitted, m', hserial, hd'⟩
    · rw [List.filter_cons_of_neg (by simp [hraised]), List.filter_nil, List.append_nil]
      exact ⟨m, hrun, hd'⟩
    · rw [List.filter_cons_of_pos hcommitted, List.filter_nil]
      exact ⟨m', hrun.snoc hserial, by simpa using hd'⟩

end TraceGuard
