import Mathlib.Data.List.Induction

/-! Finite runs of a labelled transition relation, with the invariant rule and
the rule that chains what single steps relate. The label list is the history. -/
namespace Traces
variable {σ ε : Type*} {step : σ → ε → σ → Prop}

inductive Run (step : σ → ε → σ → Prop) : σ → List ε → σ → Prop where
  | nil (s : σ) : Run step s [] s
  | snoc {s t u : σ} {es : List ε} {e : ε} (past : Run step s es t) (last : step t e u) :
      Run step s (es ++ [e]) u

theorem Run.single {s t : σ} {e : ε} (h : step s e t) : Run step s [e] t :=
  .snoc (.nil s) h

/-- What holds at the start and is kept by every step of the run holds at its end. -/
theorem Run.invariant {I : List ε → σ → Prop} {s : σ} (init : I [] s)
    (keep : ∀ es t e u, Run step s es t → I es t → step t e u → I (es ++ [e]) u)
    {es : List ε} {t : σ} (h : Run step s es t) : I es t := by
  induction h with
  | nil => exact init
  | snoc past last ih => exact keep _ _ _ _ past ih last

theorem Run.mono {step' : σ → ε → σ → Prop} (weaker : ∀ s e t, step s e t → step' s e t) {s t : σ}
    {es : List ε} (h : Run step s es t) : Run step' s es t := by
  induction h with
  | nil => exact .nil _
  | snoc past last ih => exact .snoc ih (weaker _ _ _ last)

theorem Run.append {s t u : σ} {es fs : List ε} (h : Run step s es t)
    (h' : Run step t fs u) : Run step s (es ++ fs) u := by
  induction h' with
  | nil => simpa using h
  | snoc past last ih =>
    rw [← List.append_assoc]
    exact .snoc ih last

theorem Run.cons {s t u : σ} {e : ε} {es : List ε} (h : step s e t)
    (h' : Run step t es u) : Run step s (e :: es) u :=
  (Run.single h).append h'

/-- A run over a concatenation passes through a middle state. -/
theorem Run.split {s u : σ} {es fs : List ε} (h : Run step s (es ++ fs) u) :
    ∃ t, Run step s es t ∧ Run step t fs u := by
  induction fs using List.reverseRecOn generalizing u with
  | nil => exact ⟨u, by simpa using h, .nil u⟩
  | append_singleton fs f ih =>
    rw [← List.append_assoc] at h
    generalize hall : es ++ fs ++ [f] = all at h
    cases h with
    | nil => simp at hall
    | snoc past last =>
      obtain ⟨rfl, hf⟩ := List.append_inj' hall rfl
      obtain rfl : f = _ := by simpa using hf
      obtain ⟨t, before, after⟩ := ih past
      exact ⟨t, before, .snoc after last⟩

theorem Run.eq_of_nil {s t : σ} (h : Run step s [] t) : t=s := by
  generalize hall : [] = es at h
  cases h with
  | nil => rfl
  | snoc => simp at hall

theorem Run.step_single {s t : σ} {e : ε} (h : Run step s [e] t) : step s e t := by
  generalize hall : [e] = es at h
  cases h with
  | nil => cases hall
  | @snoc _ _ before e' past last =>
    cases before with
    | nil =>
      obtain rfl : e=e' := by simpa using hall
      exact past.eq_of_nil ▸ last
    | cons => simp at hall

theorem Run.pair {s u : σ} {e f : ε} (h : Run step s [e, f] u) : ∃ t, step s e t ∧ step t f u := by
  obtain ⟨t, before, after⟩ := Run.split (show Run step s ([e]++[f]) u from h)
  exact ⟨t, before.step_single, after.step_single⟩

/-- A preorder that every step respects, in the states where `I` holds, relates
the two ends of a run. -/
theorem Run.related {I : σ → Prop} {R : σ → σ → Prop} (refl : ∀ s, R s s)
    (trans : ∀ s t u, R s t → R t u → R s u)
    (keep : ∀ t e u, I t → step t e u → I u) (one : ∀ t e u, I t → step t e u → R t u)
    {s t : σ} {es : List ε} (h : Run step s es t) (hs : I s) : R s t ∧ I t := by
  induction h with
  | nil => exact ⟨refl _, hs⟩
  | snoc past last ih =>
    obtain ⟨hr, hi⟩ := ih
    exact ⟨trans _ _ _ hr (one _ _ _ hi last), keep _ _ _ hi last⟩

/-- Steps that an abstraction matches, or hides, give a matched run. -/
theorem Run.simulate {τ δ : Type*} {astep : τ → δ → τ → Prop} (abs : σ → τ) {label : ε → Option δ}
    (refines : ∀ s e t, step s e t →
      (∃ a, label e = some a ∧ astep (abs s) a (abs t)) ∨ (label e = none ∧ abs t = abs s))
    {s t : σ} {es : List ε} (h : Run step s es t) :
    Run astep (abs s) (es.filterMap label) (abs t) := by
  induction h with
  | nil => exact .nil _
  | snoc past last ih =>
    rw [List.filterMap_append]
    rcases refines _ _ _ last with ⟨a, hl, hstep⟩ | ⟨hl, he⟩
    · simpa [hl] using Run.snoc ih hstep
    · rw [he]
      simpa [hl] using ih

end Traces
