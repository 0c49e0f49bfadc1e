import TraceGuard.Dialogue

/-! Computations that are run one after the other, whatever each of them ends in. -/
namespace Dialogue
open Stateful
variable {ε σ η α ρ : Type} {f : ρ → Talk ε σ η α} {s : Session σ η}

def serial (f : ρ → Talk ε σ η α) : List ρ → Session σ η → List (Except ε α) × Session σ η
  | [], s => ([], s)
  | r :: rs, s =>
    let ended := outcome (f r) s
    let rest := serial f rs ended.2
    (ended.1 :: rest.1, rest.2)

theorem serial_append (xs ys : List ρ) (s : Session σ η) :
    serial f (xs++ys) s=((serial f xs s).1++(serial f ys (serial f xs s).2).1, (serial f ys (serial f xs s).2).2) := by
  induction xs generalizing s with
  | nil => rfl
  | cons x xs ih =>
    simp only [List.cons_append, serial, ih]

/-- What holds at the start and is kept by every next computation holds after each run, with what was run. -/
theorem serial_induction {p : List ρ → Session σ η → Prop} (start : p [] s)
    (step : ∀ earlier r t, p earlier t → t=(serial f earlier s).2 → Ends (f r) t fun _ u => p (earlier++[r]) u)
    (rs : List ρ) : p rs (serial f rs s).2 := by
  induction rs using List.reverseRecOn with
  | nil => exact start
  | append_singleton rs r ih =>
    rw [serial_append]
    exact step rs r _ ih rfl

/-- The same of an invariant that does not mention what was run, together with all results. -/
theorem serial_results {p : Session σ η → Prop} {q : Except ε α → Prop}
    (step : ∀ r s, p s → Ends (f r) s fun result t => q result ∧ p t) (rs : List ρ) (start : p s) :
    (∀ result∈(serial f rs s).1, q result) ∧ p (serial f rs s).2 := by
  induction rs generalizing s with
  | nil => exact ⟨List.forall_mem_nil _, start⟩
  | cons r rs ih =>
    obtain ⟨hq, hp⟩ := step r s start
    obtain ⟨hresults, hlast⟩ := ih hp
    exact ⟨List.forall_mem_cons.mpr ⟨hq, hresults⟩, hlast⟩

end Dialogue
