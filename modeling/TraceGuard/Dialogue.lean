import Mathlib.Data.List.Infix
import TraceGuard.Stateful

/-! Programs that ask an environment. Each answer is an arbitrary function of the exchange so
far, which is recorded, so one environment stands for any behaviour of the parties behind it. -/
namespace Dialogue
open Stateful
variable {ε σ η α β : Type}

structure Session (σ η : Type) where
  state : σ
  log : List η

abbrev Talk (ε σ η : Type) := EStateM ε (Session σ η)

def state : Talk ε σ η σ := fun s => .ok s.state s

def update (f : σ → σ) : Talk ε σ η Unit := fun s => .ok () { s with state := f s.state }

/-- A computation that neither asks nor writes. -/
def lift (x : Except ε α) : Talk ε σ η α := check fun _ => x

/-- What follows from the exchange so far. -/
def consult (f : List η → α) : Talk ε σ η α := fun s => .ok (f s.log) s

/-- A question, with the entry that records its answer. -/
def ask (answer : List η → Except ε α) (record : Except ε α → η) : Talk ε σ η α := fun s =>
  match answer s.log with
  | .ok a => .ok a { s with log := s.log++[record (.ok a)] }
  | .error e => .error e { s with log := s.log++[record (.error e)] }

/-- A question whose answer is no exception, or is one as a value. -/
def inquire (answer : List η → α) (record : α → η) : Talk ε σ η α := fun s =>
  .ok (answer s.log) { s with log := s.log++[record (answer s.log)] }

def note (entry : η) : Talk ε σ η Unit := fun s => .ok () { s with log := s.log++[entry] }

/-- Run a computation and keep its exception as a value. -/
def attempt (x : Talk ε σ η α) : Talk ε σ η (Except ε α) := fun s =>
  match x s with
  | .ok a t => .ok (.ok a) t
  | .error e t => .ok (.error e) t

/-- What holds of the result and of the session that a computation ends in. -/
def Ends (x : Talk ε σ η α) (s : Session σ η) (q : Except ε α → Session σ η → Prop) : Prop :=
  q (outcome x s).1 (outcome x s).2

section
variable {x : Talk ε σ η α} {s : Session σ η} {p q : Except ε α → Session σ η → Prop}

theorem Ends.of {r : Except ε α} {t : Session σ η} (h : Ends x s q) (ho : outcome x s = (r, t)) :
    q r t := by
  unfold Ends at h
  rwa [ho] at h

theorem Ends.mono (h : Ends x s p) (weaker : ∀ r t, p r t → q r t) : Ends x s q := weaker _ _ h

theorem Ends.bind {f : α → Talk ε σ η β} {q : Except ε β → Session σ η → Prop} (h : Ends x s p)
    (ok : ∀ a t, p (.ok a) t → Ends (f a) t q) (error : ∀ e t, p (.error e) t → q (.error e) t) :
    Ends (x >>= f) s q := by
  match ho : outcome x s with
  | (.ok a, t) =>
    have ha := ok a t (h.of ho)
    rw [Ends, outcome_bind_ok ho]
    exact ha
  | (.error e, t) =>
    rw [Ends, outcome_bind_error ho]
    exact error e t (h.of ho)

theorem ends_pure {a : α} (h : q (.ok a) s) : Ends (pure a) s q := h

theorem ends_throw {e : ε} (h : q (.error e) s) : Ends (throw e : Talk ε σ η α) s q := h

theorem ends_state {q : Except ε σ → Session σ η → Prop} (h : q (.ok s.state) s) :
    Ends state s q := h

theorem ends_update {f : σ → σ} {q : Except ε Unit → Session σ η → Prop}
    (h : q (.ok ()) { s with state := f s.state }) : Ends (update f) s q := h

theorem ends_consult {f : List η → α} (h : q (.ok (f s.log)) s) : Ends (consult f) s q := h

theorem ends_note {entry : η} {q : Except ε Unit → Session σ η → Prop}
    (h : q (.ok ()) { s with log := s.log++[entry] }) : Ends (note entry) s q := h

theorem ends_lift {y : Except ε α} (h : q y s) : Ends (lift y) s q := by
  unfold Ends lift
  rwa [outcome_check]

theorem ends_ask {answer : List η → Except ε α} {record : Except ε α → η}
    (h : q (answer s.log) { s with log := s.log++[record (answer s.log)] }) :
    Ends (ask answer record) s q := by
  unfold Ends outcome ask
  cases ha : answer s.log <;> rw [ha] at h <;> exact h

theorem ends_attempt {q : Except ε (Except ε α) → Session σ η → Prop}
    (h : Ends x s fun r t => q (.ok r) t) : Ends (attempt x) s q := by
  unfold Ends outcome at h
  unfold Ends outcome attempt
  cases hx : x s <;> rw [hx] at h <;> exact h

/-! A computation that is followed by another one goes on from where it ended. -/

theorem ends_lift_bind {y : Except ε α} {f : α → Talk ε σ η β} {q : Except ε β → Session σ η → Prop}
    (ok : ∀ a, y = .ok a → Ends (f a) s q) (error : ∀ e, y = .error e → q (.error e) s) :
    Ends (lift y >>= f) s q := by
  have h : Ends (lift y : Talk ε σ η α) s fun r t => r=y ∧ t=s := ends_lift ⟨rfl, rfl⟩
  refine h.bind ?_ ?_
  · rintro a t ⟨ha, rfl⟩
    exact ok a ha.symm
  · rintro e t ⟨he, rfl⟩
    exact error e he.symm

theorem ends_lift_ok {y : Except ε α} {a : α} {f : α → Talk ε σ η β}
    {q : Except ε β → Session σ η → Prop} (hy : y = .ok a) (h : Ends (f a) s q) :
    Ends (lift y >>= f) s q := by
  refine ends_lift_bind (fun b hb => ?_) fun e he => ?_
  · cases hy.symm.trans hb
    exact h
  · cases hy.symm.trans he

theorem ends_state_bind {g : σ → Talk ε σ η β} {q : Except ε β → Session σ η → Prop}
    (h : Ends (g s.state) s q) : Ends (state >>= g) s q := h

theorem ends_ask_bind {answer : List η → Except ε α} {record : Except ε α → η} {g : α → Talk ε σ η β}
    {q : Except ε β → Session σ η → Prop}
    (ok : ∀ a, answer s.log = .ok a → Ends (g a) { s with log := s.log++[record (.ok a)] } q)
    (error : ∀ e, answer s.log = .error e → q (.error e) { s with log := s.log++[record (.error e)] }) :
    Ends (ask answer record >>= g) s q := by
  cases ha : answer s.log with
  | ok a =>
    rw [Ends, outcome_bind_ok (a := a) (t := { s with log := s.log++[record (.ok a)] })
      (by simp [outcome, ask, ha])]
    exact ok a ha
  | error e =>
    rw [Ends, outcome_bind_error (e := e) (t := { s with log := s.log++[record (.error e)] })
      (by simp [outcome, ask, ha])]
    exact error e ha

theorem ends_inquire_bind {answer : List η → α} {record : α → η} {g : α → Talk ε σ η β}
    {q : Except ε β → Session σ η → Prop}
    (h : Ends (g (answer s.log)) { s with log := s.log++[record (answer s.log)] } q) :
    Ends (inquire answer record >>= g) s q := h

theorem ends_update_bind {f : σ → σ} {g : Unit → Talk ε σ η β} {q : Except ε β → Session σ η → Prop}
    (h : Ends (g ()) { s with state := f s.state } q) : Ends (update f >>= g) s q := h

theorem ends_consult_bind {f : List η → α} {g : α → Talk ε σ η β}
    {q : Except ε β → Session σ η → Prop} (h : Ends (g (f s.log)) s q) :
    Ends (consult f >>= g) s q := h

theorem ends_note_bind {entry : η} {g : Unit → Talk ε σ η β} {q : Except ε β → Session σ η → Prop}
    (h : Ends (g ()) { s with log := s.log++[entry] } q) : Ends (note entry >>= g) s q := h

end

/-! Sessions that a computation leads to. -/

/-- The entries that were added from one session to another. -/
def Adds (s : Session σ η) (news : List η) (t : Session σ η) : Prop := t.log=s.log++news

theorem Adds.refl (s : Session σ η) : Adds s [] s := (List.append_nil s.log).symm

theorem Adds.trans {s t u : Session σ η} {news more : List η} (h : Adds s news t)
    (h' : Adds t more u) : Adds s (news++more) u := by
  unfold Adds at *
  rw [h', h, List.append_assoc]

end Dialogue
