import Mathlib.Logic.Basic

/-! Inversion of computations that may raise: a result of a composite call comes
from results of its parts. -/
namespace Raising
variable {ε α β : Type}

theorem bind_ok {x : Except ε α} {f : α → Except ε β} {b : β}
    (h : (x >>= f) = .ok b) : ∃ a, x = .ok a ∧ f a = .ok b := by
  cases x with
  | error e => cases h
  | ok a => exact ⟨a, rfl, h⟩

theorem bind_error {x : Except ε α} {f : α → Except ε β} {e : ε}
    (h : (x >>= f) = .error e) : x = .error e ∨ ∃ a, x = .ok a ∧ f a = .error e := by
  cases x with
  | error e' => exact Or.inl (congrArg Except.error (Except.error.inj h))
  | ok a => exact Or.inr ⟨a, rfl, h⟩

theorem map_ok {x : Except ε α} {f : α → β} {b : β}
    (h : x.map f = .ok b) : ∃ a, x = .ok a ∧ f a = b := by
  cases x with
  | error e => cases h
  | ok a => exact ⟨a, rfl, Except.ok.inj h⟩

theorem mapError_ok {δ : Type} {x : Except ε α} {f : ε → δ} {a : α}
    (h : x.mapError f = .ok a) : x = .ok a := by
  cases x with
  | error e => cases h
  | ok b => exact congrArg _ (Except.ok.inj h)

/-- What follows `if c then raise`. -/
theorem guard_ok {c : Prop} [Decidable c] {e : ε} {k : PUnit → Except ε β} {b : β}
    (h : (if c then throw e >>= k else k ⟨⟩) = .ok b) : ¬c ∧ k ⟨⟩ = .ok b := by
  split at h
  · cases h
  · exact ⟨‹_›, h⟩

/-- A loop of checks. -/
theorem forM_ok {xs : List α} {f : α → Except ε PUnit} : xs.forM f = .ok ⟨⟩ ↔ ∀ x∈xs, f x = .ok ⟨⟩ := by
  induction xs with
  | nil => exact ⟨fun _ _ h => (by cases h), fun _ => rfl⟩
  | cons x xs ih =>
    rw [List.forall_mem_cons, ← ih]
    show (f x >>= fun _ => xs.forM f) = _ ↔ _
    cases f x with
    | error e => exact ⟨fun h => (by cases h), fun h => (by cases h.1)⟩
    | ok a => exact ⟨fun h => ⟨rfl, h⟩, fun h => h.2⟩

end Raising
