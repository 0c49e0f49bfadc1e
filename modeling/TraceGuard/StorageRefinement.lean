import TraceGuard.StorageRuns

/-! The database refines one control plane in memory. -/
namespace TraceGuard
open Stateful Traces ControlPlane

/-- The state that the database holds. -/
def Durable.state (d : Durable) (keyId : String) : Option AuthorityState := do
  let row ← d.row
  let data ← Json.loads row.body
  (AuthorityState.load keyId data).toOption

namespace SQLiteControlPlane
variable {world : World} {self : SQLiteControlPlane} {signingKey keyId : String}

/-- Every field of a state is loaded from its text. -/
theorem load_text {s : AuthorityState} {body : String} (h : canonical (s.dump keyId) = some body) :
    (Json.loads body).map (AuthorityState.load keyId) = some (.ok s) := by
  rw [Json.loads_dumps h, Option.map_some, s.load_dump]

theorem state_of_holds {d : Durable} {m : Machine} {n : Nat} (hd : d.Holds world signingKey keyId m n) :
    d.state keyId = if n=0 then none else some ⟨m.plane, n⟩ := by
  have hstored := hd.stored
  cases hrow : d.row with
  | none =>
    rw [hrow] at hstored
    rw [if_pos hstored.2, Durable.state, hrow]
    rfl
  | some row =>
    rw [hrow] at hstored
    obtain ⟨hn, self, _, rfl, hsave⟩ := hstored
    have hloads := Json.loads_dumps (save_ok hsave).1
    rw [if_neg hn, Durable.state, hrow]
    simp only [Option.bind_eq_bind, Option.bind_some, hloads, AuthorityState.load_dump]
    rfl

theorem begin_memory (memory memory' : AuthorityState) (row : Option AuthorityRow) :
    self.begin world false memory row = self.begin world false memory' row := by
  cases row <;> rfl

/-- What an instance held in memory does not matter. -/
theorem answer_memory (memory memory' : AuthorityState) (q : DurableRequest) (d : Durable) :
    self.answer world memory q d = self.answer world memory' q d := by
  cases q with
  | opening => rfl
  | serving q =>
    unfold answer
    cases beforeTransaction world q with
    | error e => rfl
    | ok _ =>
      dsimp only
      rw [transaction, begin_memory memory memory']
      rfl

/-- The state can be saved within the store's limit. -/
structure Fits (store : SQLiteControlPlane) (after : AuthorityState) : Prop where
  plain : (after.dump store.keyId).plain = true
  size : (Json.text Json.compact (after.dump store.keyId)).utf8ByteSize≤ store.maxStateBytes

/-- A transaction whose operation succeeds and whose state can be saved is committed. -/
theorem transaction_commits {allowInitialize : Bool} {operation : Operation ControlResponse}
    {memory before : AuthorityState} {d : Durable} {a : ControlResponse} {m : Machine}
    (hbegin : self.begin world allowInitialize memory d.row = .ok before)
    (hop : outcome (self.transacted world operation) ⟨before.plane, d.readings, d.identifiers⟩ = (.ok a, m))
    (hfits : self.Fits ⟨m.plane, before.revision+1⟩) :
    ∃ row, self.save world ⟨m.plane, before.revision+1⟩ = .ok row ∧
      self.transaction world allowInitialize operation memory d =
        (.ok a, ⟨some row, m.readings, m.identifiers⟩) := by
  obtain ⟨row, hsave⟩ : ∃ row, self.save world ⟨m.plane, before.revision+1⟩ = .ok row := by
    rw [save, canonical, Json.dumps_plain hfits.plain]
    dsimp only
    rw [if_neg (not_lt.mpr hfits.size)]
    exact ⟨_, rfl⟩
  refine ⟨row, hsave, ?_⟩
  rw [transaction, hbegin]
  simp only [hop, hsave]

theorem opening_commits {m : Machine}
    (hop : outcome (self.transacted world (pure ControlResponse.done)) {} = (.ok .done, m))
    (hfits : self.Fits ⟨m.plane, 1⟩) :
    ∃ row, self.save world ⟨m.plane, 1⟩ = .ok row ∧ DurableStep world self.signingKey self.keyId {}
      ⟨self, .opening true, .ok .done⟩ ⟨some row, m.readings, m.identifiers⟩ := by
  have hbegin : self.begin world true {} (Durable.row {}) = .ok {} := rfl
  obtain ⟨row, hsave, htransaction⟩ := transaction_commits hbegin hop hfits
  exact ⟨row, hsave, rfl, rfl, {}, htransaction⟩

end SQLiteControlPlane

/-- The state that the first transaction of a database leaves, whatever the limit on its size. -/
def sampleOpened (world : World) : Machine :=
  (outcome (SQLiteControlPlane.transacted world ⟨"key", "id", 9, 0⟩ (pure ControlResponse.done)) {}).2

def sampleSize (m : Machine) (revision : Nat) : Nat :=
  (Json.text Json.compact (AuthorityState.dump "id" ⟨m.plane, revision⟩)).utf8ByteSize

def sampleDatabase (world : World) : SQLiteControlPlane :=
  ⟨"key", "id", 9, sampleSize (sampleOpened world) 1⟩

theorem sampleDatabase_fits (world : World)
    (h : (AuthorityState.dump "id" ⟨(sampleOpened world).plane, 1⟩).plain = true) :
    (sampleDatabase world).Fits ⟨(sampleOpened world).plane, 1⟩ := by
  unfold sampleDatabase
  refine ⟨h, ?_⟩
  simp only [sampleSize, le_refl]

end TraceGuard
