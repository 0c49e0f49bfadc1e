import TraceGuard.DurableKeys
import TraceGuard.References

/-! What a failed transaction leaves in memory. A rollback loads the snapshot taken before the
operation. Most of it are copies, but the audit heads, the epochs and the issued grants are in it as
the instance's own dictionaries. -/
namespace TraceGuard
open Stateful ControlPlane

/-- The fields of an instance, three of them by reference. -/
structure Memory where
  revision : Nat := 0
  policies : SortedMap String (List PolicyVersion) := .empty
  audits : SortedMap String (List AuditEvent) := .empty
  auditHeads : Slot (SortedMap String (Nat × String)) := .ofValue .empty
  reviews : SortedMap String Review := .empty
  idempotent : SortedMap (List String) DecisionReceipt := .empty
  epochs : Slot (SortedMap String Nat) := .ofValue .empty
  executionTasks : SortedMap (List String) RegisteredTask := .empty
  executionIssued : Slot (SortedMap String String) := .ofValue .empty
  revokedCredentials : SortedMap (List String) Unit := .empty
  suspendedTenants : SortedMap String Unit := .empty

/-- `_dump`, where three values are the live dictionaries. -/
structure Snapshot where
  copy : AuthorityState
  heads : Nat
  epochs : Nat
  issued : Nat

namespace Memory
variable (p : Memory)

def plane : ControlState where
  policies := p.policies
  audits := p.audits
  auditHeads := p.auditHeads.get
  reviews := p.reviews
  idempotent := p.idempotent
  epochs := p.epochs.get
  executionTasks := p.executionTasks
  executionIssued := p.executionIssued.get
  revokedCredentials := p.revokedCredentials
  suspendedTenants := p.suspendedTenants

def state : AuthorityState := ⟨p.plane, p.revision⟩

/-- The fields after an operation, which changes the dictionaries in place. -/
def store (s : ControlState) : Memory where
  revision := p.revision
  policies := s.policies
  audits := s.audits
  auditHeads := p.auditHeads.write s.auditHeads
  reviews := s.reviews
  idempotent := s.idempotent
  epochs := p.epochs.write s.epochs
  executionTasks := s.executionTasks
  executionIssued := p.executionIssued.write s.executionIssued
  revokedCredentials := s.revokedCredentials
  suspendedTenants := s.suspendedTenants

/-- `_load` of a value with its own dictionaries. -/
def loaded (s : AuthorityState) : Memory where
  revision := s.revision
  policies := s.plane.policies
  audits := s.plane.audits
  auditHeads := p.auditHeads.rebind s.plane.auditHeads
  reviews := s.plane.reviews
  idempotent := s.plane.idempotent
  epochs := p.epochs.rebind s.plane.epochs
  executionTasks := s.plane.executionTasks
  executionIssued := p.executionIssued.rebind s.plane.executionIssued
  revokedCredentials := s.plane.revokedCredentials
  suspendedTenants := s.plane.suspendedTenants

def snapshot : Snapshot := ⟨p.state, p.auditHeads.ref, p.epochs.ref, p.executionIssued.ref⟩

@[simp] theorem plane_store (s : ControlState) : (p.store s).plane = s := by
  simp [plane, store]

@[simp] theorem state_loaded (s : AuthorityState) : (p.loaded s).state = s := by
  simp [state, plane, loaded]

end Memory

namespace Snapshot
variable (s : Snapshot) (p : Memory)

/-- What the snapshot reads as: its copies, and the dictionaries as they are now. -/
def current : AuthorityState where
  plane := { s.copy.plane with
    auditHeads := (p.auditHeads.read s.heads).getD .empty
    epochs := (p.epochs.read s.epochs).getD .empty
    executionIssued := (p.executionIssued.read s.issued).getD .empty }
  revision := s.copy.revision

/-- `_load(before)`: the heads are copied, the other two dictionaries are taken as they are. -/
def restore (keyId : String) : Except ServiceError Memory := do
  let v ← AuthorityState.load keyId ((s.current p).dump keyId).sorted
  .ok { p.loaded v with
    epochs := p.epochs.refer s.epochs
    executionIssued := p.executionIssued.refer s.issued }

/-- What is behind the snapshot's references. -/
structure Reads (heads : SortedMap String (Nat × String)) (epochs : SortedMap String Nat)
    (issued : SortedMap String String) : Prop where
  heads : p.auditHeads.read s.heads = some heads
  epochs : p.epochs.read s.epochs = some epochs
  issued : p.executionIssued.read s.issued = some issued

/-- The instance still works on the dictionaries of the snapshot. -/
structure Live : Prop where
  heads : s.heads=p.auditHeads.ref
  epochs : s.epochs=p.epochs.ref

variable {s p} {heads : SortedMap String (Nat × String)} {epochs : SortedMap String Nat}
  {issued : SortedMap String String}

theorem restore_ok (s : Snapshot) (p : Memory) (keyId : String) : ∃ q, s.restore p keyId = .ok q :=
  ⟨_, by rw [Snapshot.restore, AuthorityState.load_dump]; rfl⟩

theorem Reads.restore (h : s.Reads p heads epochs issued) (keyId : String) :
    ∃ q, s.restore p keyId = .ok q ∧ q.state = ⟨{ s.copy.plane with
      auditHeads := heads, epochs := epochs, executionIssued := issued }, s.copy.revision⟩ := by
  refine ⟨_, by rw [Snapshot.restore, AuthorityState.load_dump]; rfl, ?_⟩
  simp only [Memory.state, Memory.plane, Memory.loaded, current, Slot.get_rebind,
    Slot.get_refer h.epochs, Slot.get_refer h.issued, h.heads, Option.getD_some]

/-- The restored memory is the one of the snapshot when its dictionaries are. -/
theorem Reads.restored (h : s.Reads p heads epochs issued) (keyId : String) :
    ∃ q, s.restore p keyId = .ok q ∧ (q.state=s.copy ↔ heads=s.copy.plane.auditHeads ∧
      epochs=s.copy.plane.epochs ∧ issued=s.copy.plane.executionIssued) := by
  obtain ⟨q, hq, hstate⟩ := h.restore keyId
  refine ⟨q, hq, ?_⟩
  rw [hstate]
  obtain ⟨⟨plane, revision⟩, -, -, -⟩ := s
  obtain ⟨policies, audits, auditHeads, reviews, idempotent, epochs', executionTasks,
    executionIssued, revokedCredentials, suspendedTenants⟩ := plane
  simp

theorem reads_self (p : Memory) : p.snapshot.Reads p p.plane.auditHeads p.plane.epochs
    p.plane.executionIssued :=
  ⟨p.auditHeads.read_ref, p.epochs.read_ref, p.executionIssued.read_ref⟩

/-- Loading other values leaves what the snapshot refers to. -/
theorem Reads.loaded (h : s.Reads p heads epochs issued) (v : AuthorityState) :
    s.Reads (p.loaded v) heads epochs issued :=
  ⟨p.auditHeads.read_rebind _ h.heads, p.epochs.read_rebind _ h.epochs,
    p.executionIssued.read_rebind _ h.issued⟩

/-- An operation changes the heads and the epochs behind the snapshot, and not the issued grants. -/
theorem Reads.store (h : s.Reads p heads epochs issued) (live : s.Live p)
    (apart : s.issued≠p.executionIssued.ref) (v : ControlState) :
    s.Reads (p.store v) v.auditHeads v.epochs issued := by
  refine ⟨?_, ?_, ?_⟩
  · exact (p.auditHeads.read_write _ _).trans (if_pos live.heads)
  · exact (p.epochs.read_write _ _).trans (if_pos live.epochs)
  · exact (p.executionIssued.read_write _ _).trans ((if_neg apart).trans h.issued)

end Snapshot
/-- An instance with the numbers of clock readings and of identifiers used so far. -/
structure Instance where
  memory : Memory
  readings : Nat
  identifiers : Nat

def Instance.machine (i : Instance) : Machine := ⟨i.memory.plane, i.readings, i.identifiers⟩

/-- What a transaction is opened for: an operation, or the loading of another instance's dump. -/
inductive Act (α : Type) where
  | operation (o : Operation α)
  | reload (v : Json) (a : α)

namespace SQLiteControlPlane
variable (world : World) {α : Type} (self : SQLiteControlPlane)

/-- `_prune_and_bound` in memory. The issued grants are a new dictionary afterwards. -/
def prune (i : Instance) : Except ServiceError Unit × Instance :=
  let s := i.memory.plane.unexpired (world.clock i.readings)
  let filtered := { i.memory with idempotent := s.idempotent, reviews := s.reviews }
  if i.memory.plane.executionIssued.values.any fun serialized => (grantExpiry serialized).isNone then
    (.error (.value "stored grant has no expiry"), ⟨filtered, i.readings+1, i.identifiers⟩)
  else
    let pruned := { filtered with executionIssued := i.memory.executionIssued.rebind s.executionIssued }
    if s.within self.maxEntries = false then
      (.error .capacity, ⟨pruned, i.readings+1, i.identifiers⟩)
    else (.ok (), ⟨pruned, i.readings+1, i.identifiers⟩)

def perform : Act α → Instance → Except ServiceError α × Instance
  | .operation o, i =>
    match outcome o i.machine with
    | (r, m) => (r, ⟨i.memory.store m.plane, m.readings, m.identifiers⟩)
  | .reload v a, i =>
    match AuthorityState.load self.keyId v with
    | .error e => (.error e, i)
    | .ok state => (.ok a, { i with memory := i.memory.loaded state })

/-- From the first pruning to the saved row. -/
def acted (act : Act α) (i : Instance) : Except ServiceError (α × AuthorityRow) × Instance :=
  match self.prune world i with
  | (.error e, i) => (.error e, i)
  | (.ok _, i) =>
    match self.perform act i with
    | (.error e, i) => (.error e, i)
    | (.ok a, i) =>
      match self.prune world i with
      | (.error e, i) => (.error e, i)
      | (.ok _, i) =>
        let i := { i with memory := { i.memory with revision := i.memory.revision+1 } }
        match self.save world i.memory.state with
        | .error e => (.error e, i)
        | .ok row => (.ok (a, row), i)

/-- `transaction` with the instance's memory: a failure loads the snapshot. -/
def attempt (allowInitialize : Bool) (act : Act α) (p : Memory) (d : Durable) :
    Except ServiceError α × Memory × Durable :=
  match self.begin world allowInitialize p.state d.row with
  | .error e => (.error e, p, d)
  | .ok before =>
    let p := match d.row with
      | some _ => p.loaded before
      | none => p
    match self.acted world act ⟨p, d.readings, d.identifiers⟩ with
    | (.ok (a, row), i) => (.ok a, i.memory, ⟨some row, i.readings, i.identifiers⟩)
    | (.error e, i) =>
      match p.snapshot.restore i.memory self.keyId with
      | .error e => (.error e, i.memory, ⟨d.row, i.readings, i.identifiers⟩)
      | .ok q => (.error e, q, ⟨d.row, i.readings, i.identifiers⟩)

end SQLiteControlPlane

/-- Run in this state, the act ends with these heads and epochs where it found them. -/
def Act.Leaves {α : Type} (heads : SortedMap String (Nat × String)) (epochs : SortedMap String Nat)
    (m : Machine) : Act α → Prop
  | .operation o => (outcome o m).2.plane.auditHeads=heads ∧ (outcome o m).2.plane.epochs=epochs
  | .reload _ _ => True

/-- The act does not touch the audit heads and the epochs of what pruning leaves. -/
def Act.Quiet {α : Type} (act : Act α) (self : SQLiteControlPlane) (world : World) (m : Machine) : Prop :=
  ∀ u, outcome (self.pruneAndBound world) m = (.ok (), u) →
    act.Leaves m.plane.auditHeads m.plane.epochs u

namespace SQLiteControlPlane
variable {world : World} {α : Type} {self : SQLiteControlPlane}

theorem outcome_prune (m : Machine) : outcome (self.pruneAndBound world) m =
    if m.plane.executionIssued.values.any fun serialized => (grantExpiry serialized).isNone then
      (.error (.value "stored grant has no expiry"), ⟨m.plane, m.readings+1, m.identifiers⟩)
    else if (m.plane.unexpired (world.clock m.readings)).within self.maxEntries = false then
      (.error .capacity, ⟨m.plane, m.readings+1, m.identifiers⟩)
    else (.ok (), ⟨m.plane.unexpired (world.clock m.readings), m.readings+1, m.identifiers⟩) := by
  unfold pruneAndBound
  rw [now_bind, inspect, outcome_bind, outcome_check]
  by_cases hexpiry : (m.plane.executionIssued.values.any
      fun serialized => (grantExpiry serialized).isNone) = true
  · rw [if_pos hexpiry, if_pos hexpiry]
    rfl
  · rw [if_neg hexpiry, if_neg hexpiry]
    by_cases hwithin : (m.plane.unexpired (world.clock m.readings)).within self.maxEntries = false
    · rw [if_pos hwithin, if_pos hwithin]
      rfl
    · rw [if_neg hwithin, if_neg hwithin]
      rfl

/-- Pruning in memory is pruning of the state. -/
theorem prune_machine {i j : Instance} {r : Except ServiceError Unit}
    (h : self.prune world i = (r, j)) :
    ∃ m, outcome (self.pruneAndBound world) i.machine = (r, m) ∧ m.readings=j.readings ∧
      m.identifiers=j.identifiers ∧ (r = .ok () → m=j.machine) := by
  obtain ⟨p, readings, identifiers⟩ := i
  rw [outcome_prune]
  unfold prune at h
  dsimp only [Instance.machine] at h ⊢
  split at h
  · rename_i hexpiry
    obtain ⟨rfl, rfl⟩ := Prod.mk.inj h
    exact ⟨_, if_pos hexpiry, rfl, rfl, fun he => by cases he⟩
  rename_i hexpiry
  split at h <;> rename_i hwithin <;> obtain ⟨rfl, rfl⟩ := Prod.mk.inj h
  · exact ⟨_, (if_neg hexpiry).trans (if_pos hwithin), rfl, rfl, fun he => by cases he⟩
  · refine ⟨_, (if_neg hexpiry).trans (if_neg hwithin), rfl, rfl, fun _ => ?_⟩
    simp [Memory.plane, ControlState.unexpired]

/-- Pruning keeps the dictionaries of a snapshot, and works on other issued grants afterwards. -/
theorem prune_reads {i j : Instance} {r : Except ServiceError Unit}
    (h : self.prune world i = (r, j)) {s : Snapshot}
    {heads : SortedMap String (Nat × String)} {epochs : SortedMap String Nat}
    {issued : SortedMap String String} (reads : s.Reads i.memory heads epochs issued) :
    s.Reads j.memory heads epochs issued ∧ (s.Live i.memory → s.Live j.memory) ∧
      (r = .ok () → s.issued≠j.memory.executionIssued.ref) := by
  unfold prune at h
  dsimp only at h
  split at h
  · obtain ⟨rfl, rfl⟩ := Prod.mk.inj h
    exact ⟨⟨reads.heads, reads.epochs, reads.issued⟩, fun live => ⟨live.heads, live.epochs⟩,
      fun he => by cases he⟩
  · split at h <;> obtain ⟨rfl, rfl⟩ := Prod.mk.inj h
    all_goals exact ⟨⟨reads.heads, reads.epochs,
      i.memory.executionIssued.read_rebind _ reads.issued⟩, fun live => ⟨live.heads, live.epochs⟩,
      fun _ => i.memory.executionIssued.rebind_ref_ne _ reads.issued⟩

/-- An act ends with the heads and epochs it leaves behind the snapshot. -/
theorem perform_reads {act : Act α} {i j : Instance} {r : Except ServiceError α}
    (h : self.perform act i = (r, j)) {s : Snapshot} {heads : SortedMap String (Nat × String)}
    {epochs : SortedMap String Nat} {issued : SortedMap String String}
    (reads : s.Reads i.memory heads epochs issued) (live : s.Live i.memory)
    (apart : s.issued≠i.memory.executionIssued.ref) :
    ∃ heads' epochs', s.Reads j.memory heads' epochs' issued ∧
      ((heads'=heads ∧ epochs'=epochs) ↔ act.Leaves heads epochs i.machine) := by
  cases act with
  | operation o =>
    unfold perform at h
    dsimp only at h
    obtain ⟨-, rfl⟩ := Prod.mk.inj h
    exact ⟨_, _, reads.store live apart _, Iff.rfl⟩
  | reload v a =>
    refine ⟨heads, epochs, ?_, by simp [Act.Leaves]⟩
    unfold perform at h
    dsimp only at h
    split at h <;> obtain ⟨-, rfl⟩ := Prod.mk.inj h
    · exact reads
    · exact reads.loaded _

/-- A failure after the snapshot ends with the heads and epochs that the act left. -/
theorem acted_reads {act : Act α} {p : Memory} {readings identifiers : Nat} {e : ServiceError}
    {i : Instance} (h : self.acted world act ⟨p, readings, identifiers⟩ = (.error e, i)) :
    ∃ heads epochs, p.snapshot.Reads i.memory heads epochs p.plane.executionIssued ∧
      ((heads=p.plane.auditHeads ∧ epochs=p.plane.epochs) ↔
        act.Quiet self world ⟨p.plane, readings, identifiers⟩) := by
  have hself := Snapshot.reads_self p
  unfold acted at h
  match hfirst : self.prune world ⟨p, readings, identifiers⟩ with
  | (.error e', j) =>
    rw [hfirst] at h
    obtain ⟨-, rfl⟩ := Prod.mk.inj h
    obtain ⟨m, hm, -⟩ := prune_machine hfirst
    refine ⟨_, _, (prune_reads hfirst hself).1, fun _ u hu => ?_, fun _ => ⟨rfl, rfl⟩⟩
    cases hm.symm.trans hu
  | (.ok _, j) =>
    rw [hfirst] at h
    obtain ⟨m, hm, -, -, hok⟩ := prune_machine hfirst
    obtain ⟨hreads, hlive, hapart⟩ := prune_reads hfirst hself
    match hact : self.perform act j with
    | (r, k) =>
      obtain ⟨heads, epochs, hreads, hleaves⟩ :=
        perform_reads hact hreads (hlive ⟨rfl, rfl⟩) (hapart rfl)
      dsimp only at h
      rw [hact] at h
      refine ⟨heads, epochs, ?_, hleaves.trans ?_⟩
      · match r, h with
        | .error _, h =>
          obtain ⟨-, rfl⟩ := Prod.mk.inj h
          exact hreads
        | .ok a, h =>
          dsimp only at h
          match hlast : self.prune world k with
          | (.error _, l) =>
            rw [hlast] at h
            obtain ⟨-, rfl⟩ := Prod.mk.inj h
            exact (prune_reads hlast hreads).1
          | (.ok _, l) =>
            rw [hlast] at h
            obtain ⟨hreads, -, -⟩ := prune_reads hlast hreads
            dsimp only at h
            split at h <;> obtain ⟨-, rfl⟩ := Prod.mk.inj h
            all_goals exact ⟨hreads.heads, hreads.epochs, hreads.issued⟩
      · obtain rfl := hok rfl
        refine ⟨fun hl u hu => ?_, fun hq => hq _ hm⟩
        cases hm.symm.trans hu
        exact hl

theorem begin_loads {allowInitialize : Bool} {p : Memory} {before : AuthorityState}
    {row : Option AuthorityRow} (hb : self.begin world allowInitialize p.state row = .ok before) :
    ∃ p', (match row with
      | some _ => p.loaded before
      | none => p) = p' ∧ p'.state=before := by
  cases row with
  | some row => exact ⟨_, rfl, p.state_loaded before⟩
  | none =>
    unfold SQLiteControlPlane.begin at hb
    dsimp only at hb
    split at hb
    · exact ⟨_, rfl, Except.ok.inj hb⟩
    · cases hb

/-- A failed transaction restores memory exactly when what it was opened for left the audit heads
and the epochs alone. -/
theorem attempt_restores {allowInitialize : Bool} {act : Act α} {p q : Memory} {d d' : Durable}
    {before : AuthorityState} {e : ServiceError}
    (hb : self.begin world allowInitialize p.state d.row = .ok before)
    (h : self.attempt world allowInitialize act p d = (.error e, q, d')) :
    q.state=before ↔ act.Quiet self world ⟨before.plane, d.readings, d.identifiers⟩ := by
  unfold attempt at h
  rw [hb] at h
  dsimp only at h
  obtain ⟨p', hp', hstate⟩ := begin_loads hb
  rw [hp'] at h
  subst hstate
  match hacted : self.acted world act ⟨p', d.readings, d.identifiers⟩ with
  | (.ok _, i) =>
    rw [hacted] at h
    cases h
  | (.error e', i) =>
    rw [hacted] at h
    obtain ⟨heads, epochs, hreads, hquiet⟩ := acted_reads hacted
    obtain ⟨q', hq', hrestored⟩ := hreads.restored self.keyId
    dsimp only at h
    rw [hq'] at h
    cases h
    refine hrestored.trans (Iff.trans ?_ hquiet)
    simp [Memory.snapshot, Memory.state]

/-! The memory aside, this is the transaction on stored states. -/

/-- How a transacted operation and its save end. -/
inductive Saves (self : SQLiteControlPlane) (world : World) (o : Operation α) (m : Machine)
    (revision : Nat) : Except ServiceError (α × AuthorityRow) → Machine → Prop where
  | raised {e : ServiceError} {m' : Machine}
      (run : outcome (self.transacted world o) m = (.error e, m')) : Saves self world o m revision (.error e) m'
  | unsaved {a : α} {e : ServiceError} {m' : Machine}
      (run : outcome (self.transacted world o) m = (.ok a, m'))
      (save : self.save world ⟨m'.plane, revision⟩ = .error e) : Saves self world o m revision (.error e) m'
  | saved {a : α} {row : AuthorityRow} {m' : Machine}
      (run : outcome (self.transacted world o) m = (.ok a, m'))
      (save : self.save world ⟨m'.plane, revision⟩ = .ok row) :
      Saves self world o m revision (.ok (a, row)) m'

theorem prune_revision {i j : Instance} {r : Except ServiceError Unit}
    (h : self.prune world i = (r, j)) : j.memory.revision=i.memory.revision := by
  unfold prune at h
  dsimp only at h
  split at h
  · obtain ⟨-, rfl⟩ := Prod.mk.inj h
    rfl
  · split at h <;> obtain ⟨-, rfl⟩ := Prod.mk.inj h <;> rfl

theorem acted_saves {o : Operation α} {i j : Instance} {r : Except ServiceError (α × AuthorityRow)}
    (h : self.acted world (.operation o) i = (r, j)) :
    ∃ m, Saves self world o i.machine (i.memory.revision+1) r m ∧ m.readings=j.readings ∧
      m.identifiers=j.identifiers := by
  unfold acted at h
  match hfirst : self.prune world i with
  | (.error e, k) =>
    rw [hfirst] at h
    obtain ⟨rfl, rfl⟩ := Prod.mk.inj h
    obtain ⟨m, hm, hreadings, hidentifiers, -⟩ := prune_machine hfirst
    exact ⟨m, .raised (outcome_bind_error hm), hreadings, hidentifiers⟩
  | (.ok _, k) =>
    rw [hfirst] at h
    obtain ⟨m, hm, -, -, hmachine⟩ := prune_machine hfirst
    obtain rfl := hmachine rfl
    dsimp only [perform] at h
    match ho : outcome o k.machine with
    | (.error e, m) =>
      rw [ho] at h
      obtain ⟨rfl, rfl⟩ := Prod.mk.inj h
      exact ⟨m, .raised ((outcome_bind_ok hm).trans (outcome_bind_error ho)), rfl, rfl⟩
    | (.ok a, m) =>
      rw [ho] at h
      dsimp only at h
      have hplane : (⟨k.memory.store m.plane, m.readings, m.identifiers⟩ : Instance).machine = m := by
        simp [Instance.machine]
      match hlast : self.prune world ⟨k.memory.store m.plane, m.readings, m.identifiers⟩ with
      | (.error e, l) =>
        rw [hlast] at h
        obtain ⟨rfl, rfl⟩ := Prod.mk.inj h
        obtain ⟨m', hm', hreadings, hidentifiers, -⟩ := prune_machine hlast
        rw [hplane] at hm'
        exact ⟨m', .raised ((outcome_bind_ok hm).trans ((outcome_bind_ok ho).trans
          (outcome_bind_error hm'))), hreadings, hidentifiers⟩
      | (.ok _, l) =>
        rw [hlast] at h
        obtain ⟨m', hm', -, -, hmachine⟩ := prune_machine hlast
        rw [hplane] at hm'
        obtain rfl := hmachine rfl
        have hrun : outcome (self.transacted world o) i.machine = (.ok a, l.machine) :=
          (outcome_bind_ok hm).trans ((outcome_bind_ok ho).trans (outcome_bind_ok hm'))
        have hkept : k.memory.revision=i.memory.revision := prune_revision hfirst
        have hrevision : l.memory.revision=i.memory.revision := (prune_revision hlast).trans hkept
        have hstate : ({ l.memory with revision := l.memory.revision+1 } : Memory).state =
            ⟨l.memory.plane, i.memory.revision+1⟩ := by
          rw [← hrevision]
          rfl
        dsimp only at h
        rw [hstate] at h
        cases hsave : self.save world ⟨l.memory.plane, i.memory.revision+1⟩ with
        | error e =>
          rw [hsave] at h
          obtain ⟨rfl, rfl⟩ := Prod.mk.inj h
          exact ⟨l.machine, .unsaved hrun hsave, rfl, rfl⟩
        | ok row =>
          rw [hsave] at h
          obtain ⟨rfl, rfl⟩ := Prod.mk.inj h
          exact ⟨l.machine, .saved hrun hsave, rfl, rfl⟩

/-- An attempt answers and stores what the transaction on the same state does. -/
theorem attempt_transaction {allowInitialize : Bool} {o : Operation α} {p q : Memory}
    {d d' : Durable} {r : Except ServiceError α}
    (h : self.attempt world allowInitialize (.operation o) p d = (r, q, d')) :
    self.transaction world allowInitialize o p.state d = (r, d') := by
  unfold attempt at h
  unfold transaction
  cases hb : self.begin world allowInitialize p.state d.row with
  | error e =>
    rw [hb] at h
    cases h
    rfl
  | ok before =>
    rw [hb] at h
    dsimp only at h ⊢
    obtain ⟨p', hp', hstate⟩ := begin_loads hb
    rw [hp'] at h
    subst hstate
    match hacted : self.acted world (.operation o) ⟨p', d.readings, d.identifiers⟩ with
    | (r', i) =>
      obtain ⟨m, hsaves, hreadings, hidentifiers⟩ := acted_saves hacted
      rw [hacted] at h
      cases hsaves with
      | raised run =>
        rw [show outcome (self.transacted world o) ⟨p'.state.plane, d.readings, d.identifiers⟩ = _
          from run]
        obtain ⟨q', hq'⟩ := p'.snapshot.restore_ok i.memory self.keyId
        dsimp only at h ⊢
        rw [hq'] at h
        cases h
        rw [hreadings, hidentifiers]
      | unsaved run save =>
        rw [show outcome (self.transacted world o) ⟨p'.state.plane, d.readings, d.identifiers⟩ = _
          from run]
        obtain ⟨q', hq'⟩ := p'.snapshot.restore_ok i.memory self.keyId
        dsimp only at h ⊢
        rw [hq'] at h
        cases h
        rw [show self.save world ⟨m.plane, p'.state.revision+1⟩ = _ from save, hreadings,
          hidentifiers]
      | saved run save =>
        rw [show outcome (self.transacted world o) ⟨p'.state.plane, d.readings, d.identifiers⟩ = _
          from run]
        cases h
        dsimp only
        rw [show self.save world ⟨m.plane, p'.state.revision+1⟩ = _ from save, hreadings,
          hidentifiers]

/-! A failure of the operation, and a refusal of the quota after it. -/

theorem acted_raised {act : Act α} {i j k : Instance} {e : ServiceError}
    (hfirst : self.prune world i = (.ok (), j)) (hact : self.perform act j = (.error e, k)) :
    self.acted world act i = (.error e, k) := by
  unfold acted
  rw [hfirst]
  dsimp only
  rw [hact]

theorem acted_refused {act : Act α} {i j k l : Instance} {a : α} {e : ServiceError}
    (hfirst : self.prune world i = (.ok (), j)) (hact : self.perform act j = (.ok a, k))
    (hlast : self.prune world k = (.error e, l)) : self.acted world act i = (.error e, l) := by
  unfold acted
  rw [hfirst]
  dsimp only
  rw [hact]
  dsimp only
  rw [hlast]

theorem attempt_error {allowInitialize : Bool} {act : Act α} {p : Memory} {d : Durable}
    {row : AuthorityRow} {before : AuthorityState} {e : ServiceError} {i : Instance}
    (hrow : d.row = some row) (hb : self.begin world allowInitialize p.state (some row) = .ok before)
    (hacted : self.acted world act ⟨p.loaded before, d.readings, d.identifiers⟩ = (.error e, i)) :
    ∃ q d', self.attempt world allowInitialize act p d = (.error e, q, d') := by
  obtain ⟨q, hq⟩ := (p.loaded before).snapshot.restore_ok i.memory self.keyId
  refine ⟨q, ⟨d.row, i.readings, i.identifiers⟩, ?_⟩
  unfold attempt
  rw [hrow, hb]
  dsimp only
  rw [hacted]
  dsimp only
  rw [hq]

end SQLiteControlPlane

/-! An instance without room for an audit event: a suspension is refused after it was recorded. -/

def samplePlane : SQLiteControlPlane where
  signingKey := "signing key"
  maxEntries := 0

theorem sample_saves : ∃ row, samplePlane.save sampleWorld ⟨{}, 1⟩ = .ok row := by
  have h : (samplePlane.save sampleWorld ⟨{}, 1⟩).isOk = true := by decide +kernel
  cases hs : samplePlane.save sampleWorld ⟨{}, 1⟩ with
  | ok row => exact ⟨row, rfl⟩
  | error e =>
    rw [hs] at h
    cases h

theorem transaction_ok {self : SQLiteControlPlane} {world : World} {α : Type} {o : Operation α}
    {allowInitialize : Bool} {memory before : AuthorityState} {d : Durable} {a : α} {m : Machine}
    {row : AuthorityRow} (hb : self.begin world allowInitialize memory d.row = .ok before)
    (hrun : outcome (self.transacted world o) ⟨before.plane, d.readings, d.identifiers⟩ = (.ok a, m))
    (hsave : self.save world ⟨m.plane, before.revision+1⟩ = .ok row) :
    self.transaction world allowInitialize o memory d =
      (.ok a, ⟨some row, m.readings, m.identifiers⟩) := by
  unfold SQLiteControlPlane.transaction
  rw [hb]
  dsimp only
  rw [hrun]
  dsimp only
  rw [hsave]

/-- The database after its initialization. -/
theorem sample_opened {row : AuthorityRow} (hrow : samplePlane.save sampleWorld ⟨{}, 1⟩ = .ok row) :
    samplePlane.transaction sampleWorld true (pure ()) {} {} = (.ok (), ⟨some row, 2, 0⟩) := by
  have hbegin : samplePlane.begin sampleWorld true {} ({} : Durable).row = .ok {} := rfl
  have hrun : outcome (samplePlane.transacted sampleWorld (pure ())) ⟨{}, 0, 0⟩ =
      (.ok (), ⟨{}, 2, 0⟩) := rfl
  exact transaction_ok hbegin hrun hrow

/-- A suspension, which the quota refuses to an administrator. -/
def sampleSuspension (actor : Actor) : Act Unit :=
  .operation (suspendTenant sampleWorld "tenant" actor true)

theorem sample_refused : ∃ i, samplePlane.acted sampleWorld (sampleSuspension sampleAdmin)
    ⟨({} : Memory).loaded ⟨{}, 1⟩, 2, 0⟩ = (.error .capacity, i) :=
  ⟨_, SQLiteControlPlane.acted_refused rfl rfl rfl⟩

def sampleOutsider : Actor := ⟨"outsider", [.admin], none, [], none⟩

theorem sample_raised : ∃ e i, samplePlane.acted sampleWorld (sampleSuspension sampleOutsider)
    ⟨({} : Memory).loaded ⟨{}, 1⟩, 2, 0⟩ = (.error e, i) :=
  ⟨_, _, SQLiteControlPlane.acted_raised rfl rfl⟩

theorem sample_begin {row : AuthorityRow} (hrow : samplePlane.save sampleWorld ⟨{}, 1⟩ = .ok row) :
    samplePlane.begin sampleWorld false ({} : Memory).state (some row) = .ok ⟨{}, 1⟩ := by
  rw [SQLiteControlPlane.begin_saved (fun _ _ => by simp [sampleWorld]) rfl rfl hrow]
  exact if_neg (not_lt.mpr (SQLiteControlPlane.save_ok hrow).2.2)

/-- The heads and epochs of a refused suspension stay in memory. -/
theorem attempt_not_restored : ∃ row before q d',
    samplePlane.transaction sampleWorld true (pure ()) {} {} = (.ok (), ⟨some row, 2, 0⟩) ∧
    samplePlane.begin sampleWorld false ({} : Memory).state (some row) = .ok before ∧
    samplePlane.attempt sampleWorld false (sampleSuspension sampleAdmin) {} ⟨some row, 2, 0⟩ =
      (.error .capacity, q, d') ∧ q.state≠before := by
  obtain ⟨row, hrow⟩ := sample_saves
  have hbegin := sample_begin hrow
  obtain ⟨i, hacted⟩ := sample_refused
  have hfailed : ∃ q d', samplePlane.attempt sampleWorld false (sampleSuspension sampleAdmin) {}
    ⟨some row, 2, 0⟩ = (.error .capacity, q, d') := SQLiteControlPlane.attempt_error rfl hbegin hacted
  obtain ⟨q, d', hattempt⟩ := hfailed
  refine ⟨row, _, q, d', sample_opened hrow, hbegin, hattempt, ?_⟩
  rw [Ne, SQLiteControlPlane.attempt_restores hbegin hattempt]
  intro hquiet
  have hepochs : (SortedMap.empty.insert "tenant" 1 : SortedMap String Nat) = .empty :=
    (hquiet _ rfl).2
  have hget := congrArg (SortedMap.get? · "tenant") hepochs
  simp at hget

/-- A suspension by an actor of another tenant is refused before it changes anything. -/
theorem attempt_restores_sample : ∃ row e q d',
    samplePlane.attempt sampleWorld false (sampleSuspension sampleOutsider) {} ⟨some row, 2, 0⟩ =
      (.error e, q, d') ∧ q.state=⟨{}, 1⟩ := by
  obtain ⟨row, hrow⟩ := sample_saves
  obtain ⟨e, i, hacted⟩ := sample_raised
  have hfailed : ∃ q d', samplePlane.attempt sampleWorld false (sampleSuspension sampleOutsider) {}
    ⟨some row, 2, 0⟩ = (.error e, q, d') := SQLiteControlPlane.attempt_error rfl (sample_begin hrow) hacted
  obtain ⟨q, d', hattempt⟩ := hfailed
  refine ⟨row, e, q, d', hattempt,
    (SQLiteControlPlane.attempt_restores (sample_begin hrow) hattempt).mpr ?_⟩
  intro u hu
  obtain ⟨-, rfl⟩ := Prod.mk.inj hu
  exact ⟨rfl, rfl⟩

end TraceGuard
