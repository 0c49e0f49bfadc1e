import TraceGuard.DurableKeys
import TraceGuard.PlainStates

/-! The offline rotation of a database's keys. Within a transaction of the old database, a new one is
created that takes over its state without grants, receipts and reviews, in new epochs. -/
namespace TraceGuard
open Json (Codec)
open Stateful ControlPlane ControlState

/-- What the new database takes over. -/
def ControlState.renew (s : ControlState) : ControlState :=
  { s with
    reviews := .empty
    idempotent := .empty
    epochs := s.epochs.map (·+1)
    executionIssued := .empty }

namespace SQLiteControlPlane
variable (world : World) (self : SQLiteControlPlane)

/-- `snapshot`: the dump with the new key, no grants, receipts and reviews, and the next epochs. -/
def snapshot (newKeyId : String) (s : AuthorityState) : List (String × Json) :=
  (s.members self.keyId).map fun m => (m.1, match m.1 with
    | "key_id" => .str newKeyId
    | "issued" => .obj []
    | "receipts" => .arr []
    | "reviews" => .obj []
    | "epochs" => (Codec.map .nat).enc (s.plane.epochs.map (·+1))
    | _ => m.2)

/-- The constructor's arguments for the new database. -/
def replacement (newSeed newKeyId : String) : SQLiteControlPlane :=
  { self with signingKey := newSeed, keyId := newKeyId }

/-- `with replacement.transaction(): replacement._load(snapshot)`. -/
def restore (data : Json) (d : Durable) : Except ServiceError Unit × Durable :=
  match self.begin world false {} d.row with
  | .error e => (.error e, d)
  | .ok before =>
    match outcome (self.pruneAndBound world) ⟨before.plane, d.readings, d.identifiers⟩ with
    | (.error e, m) => (.error e, ⟨d.row, m.readings, m.identifiers⟩)
    | (.ok _, m) =>
      match AuthorityState.load self.keyId data with
      | .error e => (.error e, ⟨d.row, m.readings, m.identifiers⟩)
      | .ok loaded =>
        match outcome (self.pruneAndBound world) ⟨loaded.plane, m.readings, m.identifiers⟩ with
        | (.error e, m) => (.error e, ⟨d.row, m.readings, m.identifiers⟩)
        | (.ok _, m) =>
          match self.save world ⟨m.plane, loaded.revision+1⟩ with
          | .error e => (.error e, ⟨d.row, m.readings, m.identifiers⟩)
          | .ok row => (.ok (), ⟨some row, m.readings, m.identifiers⟩)

/-- A new database with the state. -/
def create (data : Json) (d : Durable) : Except ServiceError Unit × Durable :=
  if self.signingKey.utf8ByteSize<32 then
    (.error (.value "signing_key must be at least 32 bytes"), d)
  else match self.transaction world true (pure ()) {} d with
  | (.error e, d) => (.error e, d)
  | (.ok _, d) => self.restore world data d

/-- The creation of a new database within a transaction of another one; what it stores. -/
def found (data : Json) : Operation (Option AuthorityRow) := fun m =>
  match self.create world data ⟨none, m.readings, m.identifiers⟩ with
  | (.error e, d) => .error e { m with readings := d.readings, identifiers := d.identifiers }
  | (.ok _, d) => .ok d.row { m with readings := d.readings, identifiers := d.identifiers }

/-- The body of the old database's transaction. -/
def rotate (newSeed newKeyId : String) (actor : Actor) (revision : Nat) :
    Operation (Option AuthorityRow) := do
  inspect fun s => s.policies.keys.forM fun tenant => s.require actor .admin tenant
  let m ← get
  -- a `dict`, whose members are in no order
  let data := (Json.obj (self.snapshot newKeyId ⟨m.plane, revision⟩)).sorted
  (self.replacement newSeed newKeyId).found world data

/-- `rekey`: the new plane with its database, and the old database. -/
def rekey (newSeed newKeyId : String) (actor : Actor) (destinationExists : Bool)
    (memory : AuthorityState) (d : Durable) :
    Except ServiceError (SQLiteControlPlane × Durable) × Durable :=
  if destinationExists = true ∨ newKeyId=self.keyId then
    (.error (.value "rotation requires a new database and key identity"), d)
  else match self.begin world false memory d.row with
  | .error e => (.error e, d)
  | .ok before =>
    match self.transaction world false (self.rotate world newSeed newKeyId actor before.revision)
      memory d with
    | (.error e, d) => (.error e, d)
    | (.ok row, d) => (.ok (self.replacement newSeed newKeyId, ⟨row, d.readings, d.identifiers⟩), d)

end SQLiteControlPlane

theorem SortedMap.filter_empty {κ α : Type} [LinearOrder κ] (p : κ → α → Bool) :
    (SortedMap.empty : SortedMap κ α).filter p = .empty := rfl

theorem ControlState.renew_unexpired (s : ControlState) (t : Instant) : s.renew.unexpired t = s.renew := rfl

variable {world : World} {self : SQLiteControlPlane}

namespace SQLiteControlPlane

theorem snapshot_eq (newKeyId : String) (s : AuthorityState) :
    self.snapshot newKeyId s = AuthorityState.members newKeyId ⟨s.plane.renew, s.revision⟩ := rfl

theorem load_snapshot (newKeyId : String) (s : AuthorityState) :
    AuthorityState.load newKeyId (Json.obj (self.snapshot newKeyId s)).sorted =
      .ok ⟨s.plane.renew, s.revision⟩ := by
  rw [snapshot_eq]
  exact AuthorityState.load_dump newKeyId _

theorem restore_ok {data : Json} {d d' : Durable} {loaded : AuthorityState}
    (hload : AuthorityState.load self.keyId data = .ok loaded)
    (h : self.restore world data d = (.ok (), d')) :
    (∃ t, d'.Saved world self (loaded.plane.unexpired t) (loaded.revision+1)) ∧
      d.identifiers=d'.identifiers := by
  unfold restore at h
  cases hbegin : self.begin world false {} d.row with
  | error e => rw [hbegin] at h; cases (Prod.mk.inj h).1
  | ok before =>
    rw [hbegin] at h
    dsimp only at h
    match hfirst : outcome (self.pruneAndBound world) ⟨before.plane, d.readings, d.identifiers⟩ with
    | (.error e, m) => rw [hfirst] at h; cases (Prod.mk.inj h).1
    | (.ok _, m) =>
      rw [hfirst] at h
      simp only [hload] at h
      obtain ⟨rfl, _⟩ := prune_ok hfirst
      match hlast : outcome (self.pruneAndBound world) ⟨loaded.plane, d.readings+1, d.identifiers⟩ with
      | (.error e, m) => rw [hlast] at h; cases (Prod.mk.inj h).1
      | (.ok _, m) =>
        rw [hlast] at h
        obtain ⟨rfl, htidy⟩ := prune_ok hlast
        dsimp only at h
        split at h
        · cases (Prod.mk.inj h).1
        · rename_i row hsave
          obtain ⟨_, rfl⟩ := Prod.mk.inj h
          exact ⟨⟨_, ⟨row, rfl, hsave⟩, htidy⟩, rfl⟩

theorem restore_forward (data : Json) (d : Durable) :
    d.readings ≤ (self.restore world data d).2.readings ∧
      d.identifiers ≤ (self.restore world data d).2.identifiers := by
  have hprune : Forward (self.pruneAndBound world) := forward_prune
  unfold restore
  split
  · exact ⟨le_rfl, le_rfl⟩
  · rename_i before _
    have hfirst := hprune ⟨before.plane, d.readings, d.identifiers⟩
    split
    · rename_i m hm
      rw [hm] at hfirst
      exact hfirst
    · rename_i m hm
      rw [hm] at hfirst
      split
      · exact hfirst
      · rename_i loaded _
        have hlast := hprune ⟨loaded.plane, m.readings, m.identifiers⟩
        split
        · rename_i m' hm'
          rw [hm'] at hlast
          exact ⟨hfirst.1.trans hlast.1, hfirst.2.trans hlast.2⟩
        · rename_i m' hm'
          rw [hm'] at hlast
          split <;> exact ⟨hfirst.1.trans hlast.1, hfirst.2.trans hlast.2⟩

theorem create_forward (data : Json) (d : Durable) :
    d.readings ≤ (self.create world data d).2.readings ∧
      d.identifiers ≤ (self.create world data d).2.identifiers := by
  unfold create
  split
  · exact ⟨le_rfl, le_rfl⟩
  · have hopening : ∀ r d', self.transaction world true (pure ()) {} d = (r, d') →
        d.readings ≤ d'.readings ∧ d.identifiers ≤ d'.identifiers := by
      intro r d' h
      rcases transaction_cases (forward_pure ()) h with ⟨_, _, hforward⟩ | ⟨before, m, row, _, hop, _, _, rfl⟩
      · exact hforward
      · have hforward : Forward (self.transacted world (pure ())) := forward_transacted (forward_pure ())
        have hlater := hforward ⟨before.plane, d.readings, d.identifiers⟩
        rw [hop] at hlater
        exact hlater
    split
    · rename_i h
      exact hopening _ _ h
    · rename_i h
      obtain ⟨hreadings, hidentifiers⟩ := hopening _ _ h
      obtain ⟨hreadings', hidentifiers'⟩ := @restore_forward world self data _
      exact ⟨hreadings.trans hreadings', hidentifiers.trans hidentifiers'⟩

theorem outcome_found (data : Json) (m : Machine) :
    outcome (self.found world data) m =
      ((self.create world data ⟨none, m.readings, m.identifiers⟩).1.map fun _ =>
          (self.create world data ⟨none, m.readings, m.identifiers⟩).2.row,
        ⟨m.plane, (self.create world data ⟨none, m.readings, m.identifiers⟩).2.readings,
          (self.create world data ⟨none, m.readings, m.identifiers⟩).2.identifiers⟩) := by
  unfold outcome found
  match self.create world data ⟨none, m.readings, m.identifiers⟩ with
  | (.error e, d) => rfl
  | (.ok _, d) => rfl

theorem forward_rotate (newSeed newKeyId : String) (actor : Actor) (revision : Nat) :
    Forward (self.rotate world newSeed newKeyId actor revision) := by
  refine forward_bind (fun m => ?_) fun _ m => ?_
  · rw [inspect, outcome_check]
    exact ⟨le_rfl, le_rfl⟩
  · rw [get_bind, outcome_found]
    exact @create_forward world (self.replacement newSeed newKeyId) _ ⟨none, m.readings, m.identifiers⟩

/-- A new database that was created holds the state. -/
theorem create_ok {data : Json} {d d' : Durable} {loaded : AuthorityState}
    (hload : AuthorityState.load self.keyId data = .ok loaded)
    (h : self.create world data d = (.ok (), d')) :
    ∃ t, d'.Saved world self (loaded.plane.unexpired t) (loaded.revision+1) := by
  unfold create at h
  split at h
  · cases (Prod.mk.inj h).1
  · match hopen : self.transaction world true (pure ()) {} d with
    | (.error e, u) => rw [hopen] at h; cases (Prod.mk.inj h).1
    | (.ok _, u) =>
      rw [hopen] at h
      exact (restore_ok hload h).1

theorem rotate_ok {newSeed newKeyId : String} {actor : Actor} {revision : Nat} {m m' : Machine}
    {row : Option AuthorityRow}
    (h : outcome (self.rotate world newSeed newKeyId actor revision) m = (.ok row, m')) :
    (∀ tenant∈m.plane.policies.keys, m.plane.require actor .admin tenant = .ok ()) ∧
      m'.plane=m.plane ∧ ∀ readings identifiers, Durable.Saved ⟨row, readings, identifiers⟩ world
        (self.replacement newSeed newKeyId) m.plane.renew (revision+1) := by
  rcases inspect_bind h with ⟨_, _, he, _⟩ | ⟨_, hadmitted, h⟩
  · cases he
  · rw [get_bind, outcome_found] at h
    obtain ⟨hr, rfl⟩ := Prod.mk.inj h
    obtain ⟨_, hcreated, rfl⟩ := Raising.map_ok hr
    have hload := @load_snapshot self newKeyId ⟨m.plane, revision⟩
    obtain ⟨t, hsaved⟩ := @create_ok world (self.replacement newSeed newKeyId) _ _ _ _ hload
      (Prod.ext hcreated rfl)
    exact ⟨Raising.forM_ok.mp hadmitted, rfl, fun _ _ => ⟨hsaved.row, hsaved.tidy⟩⟩

/-- What a rotation that returns has done. -/
structure Rotated (world : World) (self : SQLiteControlPlane) (newSeed newKeyId : String) (actor : Actor)
    (s : ControlState) (n : Nat) (d : Durable) (r : SQLiteControlPlane) (d' new : Durable) : Prop where
  plane : r=self.replacement newSeed newKeyId
  differs : newKeyId≠self.keyId
  admitted : ∀ tenant∈s.policies.keys, s.require actor .admin tenant = .ok ()
  taken : new.Saved world r s.renew (n+1)
  kept : ∃ t t', d'.Saved world self ((s.unexpired t).unexpired t') (n+1)
  later : d.identifiers ≤ new.identifiers ∧ d.identifiers ≤ d'.identifiers

theorem rekey_ok
    (hverify : ∀ seed text, world.crypto.verify (world.crypto.publicKey seed) text
      (world.crypto.sign seed text) = true)
    {newSeed newKeyId : String} {actor : Actor} {destinationExists : Bool} {memory : AuthorityState}
    {d d' new : Durable} {r : SQLiteControlPlane} {s : ControlState} {n : Nat}
    (hd : d.Saved world self s n)
    (h : self.rekey world newSeed newKeyId actor destinationExists memory d = (.ok (r, new), d')) :
    Rotated world self newSeed newKeyId actor s n d r d' new := by
  unfold rekey at h
  split at h
  · cases (Prod.mk.inj h).1
  · rename_i hguard
    rw [begin_of_saved hverify false memory hd] at h
    dsimp only at h
    match hrun : self.transaction world false (self.rotate world newSeed newKeyId actor n) memory d with
    | (.error e, u) => rw [hrun] at h; cases (Prod.mk.inj h).1
    | (.ok row, u) =>
      rw [hrun] at h
      obtain ⟨hr, rfl⟩ := Prod.mk.inj h
      cases hr
      have hforward := @forward_rotate world self newSeed newKeyId actor n
      rcases transaction_saved hverify hforward hd hrun with ⟨⟨_, he⟩, _⟩ | ⟨_, v, hok, hop, _, hsaved⟩
      · cases he
      · cases hok
        obtain ⟨hadmitted, hplane, htaken⟩ := rotate_ok hop
        have hlater : d.identifiers ≤ u.identifiers := by
          rcases transaction_cases hforward hrun with ⟨_, _, _, hle⟩ | ⟨before, m, row', _, hop', _, _, rfl⟩
          · exact hle
          · have hle := (@forward_transacted world self _ _ hforward)
              ⟨before.plane, d.readings, d.identifiers⟩
            rw [hop'] at hle
            exact hle.2
        exact ⟨rfl, fun he => hguard (Or.inr he), hadmitted, htaken u.readings u.identifiers,
          ⟨_, _, hplane ▸ hsaved⟩, hlater, hlater⟩

end SQLiteControlPlane
end TraceGuard
