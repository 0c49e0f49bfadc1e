import Mathlib.Logic.Function.Basic
import TraceGuard.LedgerHistory

/-! The reservation protocol, apart from any executor: workers that share a ledger reserve,
call the provider while they hold a fresh row, and close that row. Crashes are allowed
anywhere, and an operator may reconcile. -/
namespace TraceGuard.Dispatching
open Traces ExecutionLedger

/-- Where a worker stands with its reservation. -/
inductive Hold where
  | free
  | holding (r : Reservation)
  | calling (r : Reservation)

/-- The reservation a worker has a row for. -/
inductive Hold.Owns : Hold → Reservation → Prop where
  | holding (r : Reservation) : Owns (.holding r) r
  | calling (r : Reservation) : Owns (.calling r) r

structure Site where
  db : Database
  workers : Nat → Hold

inductive Action where
  | reserve (id : Nat) (r : Reservation)
  | dispatch (id : Nat) (r : Reservation)
  | close (id : Nat)
  | crash (id : Nat)
  | reconcile (v : Resolution) (row : Execution)

def Site.set (s : Site) (id : Nat) (h : Hold) : Site :=
  { s with workers := Function.update s.workers id h }

inductive Step : Site → Action → Site → Prop where
  | reserved {s : Site} {id : Nat} {r : Reservation} {e : Event} {db : Database}
      (idle : s.workers id = .free) (call : e.call=.reserve r)
      (fresh : e.outcome=.ok (.reserved none)) (step : ExecutionLedger.Step s.db e db) :
      Step s (.reserve id r) ({ s with db := db }.set id (.holding r))
  | refused {s : Site} {id : Nat} {r : Reservation} {e : Event} {db : Database}
      (idle : s.workers id = .free) (call : e.call=.reserve r)
      (other : e.outcome≠.ok (.reserved none)) (step : ExecutionLedger.Step s.db e db) :
      Step s (.reserve id r) ({ s with db := db }.set id .free)
  | dispatch {s : Site} {id : Nat} {r : Reservation} (held : s.workers id = .holding r) :
      Step s (.dispatch id r) (s.set id (.calling r))
  | released {s : Site} {id : Nat} {r : Reservation} {e : Event} {db : Database}
      {disposition : Disposition} (held : s.workers id = .holding r)
      (call : e.call=.finish r.nonce .notDispatched none disposition)
      (step : ExecutionLedger.Step s.db e db) :
      Step s (.close id) ({ s with db := db }.set id .free)
  | completed {s : Site} {id : Nat} {r : Reservation} {e : Event} {db : Database}
      {status : Status} {result : Option String} {disposition : Disposition}
      (busy : s.workers id = .calling r) (kept : status≠.notDispatched)
      (call : e.call=.finish r.nonce status result disposition)
      (step : ExecutionLedger.Step s.db e db) :
      Step s (.close id) ({ s with db := db }.set id .free)
  | crash (s : Site) (id : Nat) : Step s (.crash id) (s.set id .free)
  | reconcile {s : Site} {v : Resolution} {row : Execution} {e : Event} {db : Database}
      (call : e.call=.reconcile v) (done : e.outcome=.ok (.reconciled row))
      (step : ExecutionLedger.Step s.db e db) :
      Step s (.reconcile v row) { s with db := db }

/-- The calls of the provider, in the order in which they started. -/
def dispatched (es : List Action) : List Reservation :=
  es.filterMap fun
    | .dispatch _ r => some r
    | _ => none

/-- The row of a reservation, with a status in `p`. -/
def Stored (db : Database) (r : Reservation) (p : Status → Prop) : Prop :=
  ∃ row∈db.executions.rows, row.toReserved=(pendingRow r).toReserved ∧ p row.status

/-- Every owner and every started call has a row, and no two share one. -/
structure Owned (es : List Action) (s : Site) : Prop where
  sound : Sound s.db
  held : ∀ id r, (s.workers id).Owns r → Stored s.db r fun _ => True
  called : ∀ d∈dispatched es, Stored s.db d fun _ => True
  apart : ∀ id id' r r', (s.workers id).Owns r → (s.workers id').Owns r' → r.nonce=r'.nonce → id=id'
  ahead : ∀ id r, s.workers id = .holding r → ∀ d∈dispatched es, d.nonce≠r.nonce
  once : ((dispatched es).map fun d => d.nonce).Nodup

@[simp] theorem Site.set_db (s : Site) (id : Nat) (h : Hold) : (s.set id h).db = s.db := rfl

@[simp] theorem Site.set_same (s : Site) (id : Nat) (h : Hold) : (s.set id h).workers id = h := by
  simp [Site.set]

theorem Site.set_other (s : Site) {id id' : Nat} (h : Hold) (hne : id'≠id) :
    (s.set id h).workers id' = s.workers id' := by
  simp [Site.set, hne]

theorem Hold.Owns.eq {h : Hold} {r r' : Reservation} (a : h.Owns r) (b : h.Owns r') : r=r' := by
  cases a <;> cases b <;> rfl

theorem Stored.keep {db db' : Database} {r : Reservation} (h : Stored db r fun _ => True)
    (hk : KeepsRows db db') : Stored db' r fun _ => True := by
  obtain ⟨row, hrow, hsame, -⟩ := h
  obtain ⟨row', hrow', hsame', -⟩ := hk row hrow
  exact ⟨row', hrow', hsame'.trans hsame, trivial⟩

theorem Stored.nonce {db : Database} {r : Reservation} {p : Status → Prop}
    (h : Stored db r p) : ∃ row∈db.executions.rows, row.nonce=r.nonce := by
  obtain ⟨row, hrow, hsame, -⟩ := h
  exact ⟨row, hrow, congrArg Reserved.nonce hsame⟩

/-- Workers that only let go keep the invariant. -/
theorem Owned.shrink {es es' : List Action} {s t : Site} (h : Owned es s)
    (hd : dispatched es' = dispatched es) (sound : Sound t.db) (hk : KeepsRows s.db t.db)
    (hw : ∀ id, t.workers id = s.workers id ∨ t.workers id = .free) : Owned es' t := by
  have owns {id : Nat} {r : Reservation} (ho : (t.workers id).Owns r) : (s.workers id).Owns r := by
    rcases hw id with he | he
    · rwa [he] at ho
    · rw [he] at ho
      cases ho
  refine ⟨sound, fun id r ho => (h.held id r (owns ho)).keep hk, ?_,
    fun id id' r r' ho ho' => h.apart id id' r r' (owns ho) (owns ho'), ?_, ?_⟩
  · rw [hd]
    exact fun d hm => (h.called d hm).keep hk
  · intro id r hh
    rw [hd]
    rcases hw id with he | he
    · exact h.ahead id r (he ▸ hh)
    · rw [he] at hh
      cases hh
  · rw [hd]
    exact h.once

theorem dispatched_append (es : List Action) (a : Action) (h : ∀ id r, a≠.dispatch id r) :
    dispatched (es++[a]) = dispatched es := by
  unfold dispatched
  rw [List.filterMap_append]
  cases a with
  | dispatch id r => exact absurd rfl (h id r)
  | reserve | close | crash | reconcile => simp

theorem dispatched_dispatch (es : List Action) (id : Nat) (r : Reservation) :
    dispatched (es++[.dispatch id r]) = dispatched es++[r] := by
  simp [dispatched]

theorem set_free (s : Site) (id : Nat) (id' : Nat) :
    (s.set id .free).workers id' = s.workers id' ∨ (s.set id .free).workers id' = .free := by
  by_cases hid : id'=id
  · exact Or.inr (by simp [hid])
  · exact Or.inl (s.set_other _ hid)

theorem step_owned {es : List Action} {s t : Site} {a : Action} (h : Owned es s)
    (hs : Step s a t) : Owned (es++[a]) t := by
  cases hs with
  | @reserved id r e db idle call fresh step =>
    obtain ⟨rows, hnew, -, -⟩ := step_reserved step call fresh
    have hk : KeepsRows s.db db := step_keepsRows step
    have unused {d : Reservation} (hd : Stored s.db d fun _ => True) : d.nonce≠r.nonce := by
      obtain ⟨row, hrow, hn⟩ := hd.nonce
      have := hnew row hrow
      rintro he
      simp [sameKey, hn, he] at this
    have back {id' : Nat} {r' : Reservation} (hid : id'≠id)
        (ho : (({ s with db := db } : Site).set id (.holding r)).workers id' |>.Owns r') :
        (s.workers id').Owns r' := by
      rwa [Site.set_other _ _ hid] at ho
    refine ⟨step_sound step h.sound, ?_, ?_, ?_, ?_, ?_⟩
    · intro id' r' ho
      by_cases hid : id'=id
      · subst hid
        rw [Site.set_same] at ho
        cases ho
        exact ⟨pendingRow r, by simp [rows], rfl, trivial⟩
      · exact (h.held id' r' (back hid ho)).keep hk
    · rw [dispatched_append _ _ (by simp)]
      exact fun d hd => (h.called d hd).keep hk
    · intro id₁ id₂ r₁ r₂ h₁ h₂ hn
      by_cases hid₁ : id₁=id <;> by_cases hid₂ : id₂=id
      · rw [hid₁, hid₂]
      · subst hid₁
        rw [Site.set_same] at h₁
        cases h₁
        exact absurd hn.symm (unused (h.held id₂ r₂ (back hid₂ h₂)))
      · subst hid₂
        rw [Site.set_same] at h₂
        cases h₂
        exact absurd hn (unused (h.held id₁ r₁ (back hid₁ h₁)))
      · exact h.apart id₁ id₂ r₁ r₂ (back hid₁ h₁) (back hid₂ h₂) hn
    · intro id' r' hh d hd
      rw [dispatched_append _ _ (by simp)] at hd
      by_cases hid : id'=id
      · subst hid
        rw [Site.set_same] at hh
        cases hh
        exact unused (h.called d hd)
      · rw [Site.set_other _ _ hid] at hh
        exact h.ahead id' r' hh d hd
    · rw [dispatched_append _ _ (by simp)]
      exact h.once
  | refused idle call other step =>
    exact h.shrink (dispatched_append _ _ (by simp)) (step_sound step h.sound)
      (step_keepsRows step) (set_free { s with db := _ } _)
  | @dispatch id r held =>
    have hr : Stored s.db r fun _ => True := h.held id r (held ▸ .holding r)
    have back {id' : Nat} {r' : Reservation} (ho : ((s.set id (.calling r)).workers id').Owns r') :
        (s.workers id').Owns r' := by
      by_cases hid : id'=id
      · subst hid
        rw [Site.set_same] at ho
        cases ho
        exact held ▸ .holding r
      · rwa [Site.set_other _ _ hid] at ho
    refine ⟨h.sound, fun id' r' ho => h.held id' r' (back ho), ?_,
      fun id₁ id₂ r₁ r₂ h₁ h₂ => h.apart id₁ id₂ r₁ r₂ (back h₁) (back h₂), ?_, ?_⟩
    · intro d hd
      rw [dispatched_dispatch, List.mem_append, List.mem_singleton] at hd
      rcases hd with hd | rfl
      · exact h.called d hd
      · exact hr
    · intro id' r' hh d hd
      have hid : id'≠id := by
        rintro rfl
        simp at hh
      rw [Site.set_other _ _ hid] at hh
      rw [dispatched_dispatch, List.mem_append, List.mem_singleton] at hd
      rcases hd with hd | rfl
      · exact h.ahead id' r' hh d hd
      · exact fun he => hid (h.apart id' id r' d (hh ▸ .holding r') (held ▸ .holding d) he.symm)
    · rw [dispatched_dispatch, List.map_append, List.map_singleton]
      refine List.nodup_append.mpr ⟨h.once, by simp, ?_⟩
      intro n hn m hm
      obtain ⟨d, hd, rfl⟩ := List.mem_map.mp hn
      rw [List.mem_singleton] at hm
      exact hm ▸ h.ahead id r held d hd
  | released held call step =>
    exact h.shrink (dispatched_append _ _ (by simp)) (step_sound step h.sound)
      (step_keepsRows step) (set_free { s with db := _ } _)
  | completed busy kept call step =>
    exact h.shrink (dispatched_append _ _ (by simp)) (step_sound step h.sound)
      (step_keepsRows step) (set_free { s with db := _ } _)
  | crash id =>
    exact h.shrink (dispatched_append _ _ (by simp)) h.sound
      (fun row hrow => ⟨row, hrow, rfl, .stay _⟩) (set_free s id)
  | reconcile call done step =>
    exact h.shrink (dispatched_append _ _ (by simp)) (step_sound step h.sound)
      (step_keepsRows step) fun id => Or.inl rfl

end TraceGuard.Dispatching
