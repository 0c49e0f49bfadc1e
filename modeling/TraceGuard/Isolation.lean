import TraceGuard.Stateful
import Mathlib.Data.List.Basic

/-! Parties that share one state. A computation stays within a party's part when it does there what
it does on the whole; then the calls of the others can be deleted, and the party sees no difference. -/
namespace Isolation
open Stateful

section
variable {ε σ τ ν α β : Type} (part : τ → σ → σ) (view : τ → σ → ν)

/-- At `s` the computation does what it does on the part of `t` alone, out of sight of the others. -/
structure Within (t : τ) (x : EStateM ε σ α) (s : σ) : Prop where
  same : outcome x (part t s) = ((outcome x s).1, part t (outcome x s).2)
  unseen : ∀ u, u≠t → view u (outcome x s).2 = view u s

variable {part view} {t : τ} {s : σ}

theorem Within.pure (a : α) : Within part view t (Pure.pure a : EStateM ε σ α) s :=
  ⟨rfl, fun _ _ => rfl⟩

theorem Within.throw (e : ε) : Within part view t (MonadExcept.throw e : EStateM ε σ α) s :=
  ⟨rfl, fun _ _ => rfl⟩

theorem Within.check {f : σ → Except ε α} (h : f (part t s) = f s) :
    Within part view t (Stateful.check f) s := by
  refine ⟨?_, fun _ _ => ?_⟩ <;> simp only [outcome_check, h]

theorem Within.update {f : σ → σ} (h : f (part t s) = part t (f s))
    (hu : ∀ u, u≠t → view u (f s) = view u s) :
    Within part view t (modify f : EStateM ε σ Unit) s :=
  ⟨congrArg (Prod.mk _) h, hu⟩

theorem Within.bind {x : EStateM ε σ α} {f : α → EStateM ε σ β} (h : Within part view t x s)
    (hf : ∀ a s', outcome x s = (.ok a, s') → Within part view t (f a) s') :
    Within part view t (x >>= f) s := by
  have hsame := h.same
  have hunseen := h.unseen
  match hx : outcome x s with
  | (.error e, s') =>
    rw [hx] at hsame hunseen
    refine ⟨?_, fun u hu => ?_⟩
    · rw [outcome_bind_error hsame, outcome_bind_error hx]
    · rw [outcome_bind_error hx]
      exact hunseen u hu
  | (.ok a, s') =>
    rw [hx] at hsame hunseen
    obtain ⟨hfsame, hfunseen⟩ := hf a s' hx
    refine ⟨?_, fun u hu => ?_⟩
    · rw [outcome_bind_ok hsame, outcome_bind_ok hx, hfsame]
    · rw [outcome_bind_ok hx]
      exact (hfunseen u hu).trans (hunseen u hu)

theorem Within.map {x : EStateM ε σ α} (f : α → β) (h : Within part view t x s) :
    Within part view t (f <$> x) s := by
  refine ⟨?_, fun u hu => ?_⟩
  · rw [outcome_map, outcome_map, h.same]
  · rw [outcome_map]
    exact h.unseen u hu

end

section
variable {σ κ ρ τ ν : Type} (exec : σ → κ → ρ × σ) (party : κ → τ) (view : τ → σ → ν)

/-- The calls of a run with their results. -/
def answers : σ → List κ → List (κ × ρ)
  | _, [] => []
  | s, c :: calls => (c, (exec s c).1) :: answers (exec s c).2 calls

/-- The last state of a run. -/
def after : σ → List κ → σ
  | s, [] => s
  | s, c :: calls => after (exec s c).2 calls

/-- Calls in states that satisfy `I` with the calls to come are alike where their party sees the same,
and apart from the others. -/
structure Isolated (I : σ → List κ → Prop) : Prop where
  keep : ∀ {s c calls}, I s (c :: calls) → I (exec s c).2 calls
  drop : ∀ {s calls calls'}, I s calls → calls'.Sublist calls → I s calls'
  alike : ∀ {s s' c calls calls'}, I s (c :: calls) → I s' (c :: calls') →
    view (party c) s = view (party c) s' →
      (exec s c).1=(exec s' c).1 ∧ view (party c) (exec s c).2 = view (party c) (exec s' c).2
  apart : ∀ {s c calls u}, I s (c :: calls) → u≠party c → view u (exec s c).2 = view u s

variable {exec party view} {I : σ → List κ → Prop}

theorem Isolated.after (h : Isolated exec party view I) {s : σ} {past calls : List κ}
    (hs : I s (past++calls)) : I (after exec s past) calls := by
  induction past generalizing s with
  | nil => exact hs
  | cons c past ih => exact ih (h.keep hs)

section
variable [DecidableEq τ]

variable (party) in
/-- The calls of a party alone. -/
def purge (t : τ) (calls : List κ) : List κ := calls.filter fun c => party c=t

variable (exec party) in
/-- What a party sees of a run: its own calls and their results. -/
def seen (t : τ) (s : σ) (calls : List κ) : List (κ × ρ) :=
  (answers exec s calls).filter fun a => party a.1=t

/-- A party sees the same of a run of all calls and of a run of its own calls alone. -/
theorem Isolated.noninterference (h : Isolated exec party view I) (t : τ) {s s' : σ} {calls : List κ}
    (hs : I s calls) (hs' : I s' (purge party t calls)) (hview : view t s = view t s') :
    seen exec party t s calls = answers exec s' (purge party t calls) := by
  induction calls generalizing s s' with
  | nil => rfl
  | cons c calls ih =>
    by_cases hc : party c=t
    · subst hc
      have hpurged : purge party (party c) (c :: calls) = c :: purge party (party c) calls := by
        simp [purge]
      rw [hpurged] at hs' ⊢
      obtain ⟨hresult, hnext⟩ := h.alike hs hs' hview
      rw [seen, answers, answers, List.filter_cons_of_pos (by simp), hresult]
      exact congrArg _ (ih (h.keep hs) (h.keep hs') hnext)
    · have hpurged : purge party t (c :: calls) = purge party t calls := by
        simp [purge, hc]
      rw [hpurged] at hs' ⊢
      rw [seen, answers, List.filter_cons_of_neg (by simpa using hc)]
      exact ih (h.keep hs) hs' ((h.apart hs (Ne.symm hc)).trans hview)

end
end
end Isolation
