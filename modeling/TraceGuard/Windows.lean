import Mathlib.Algebra.Order.Group.Defs
import Mathlib.Data.List.Induction
import Mathlib.Data.List.Count

/-! Moments at a bounded rate. When each moment has a bounded number of earlier ones close behind it, every
window holds a bounded number of them. -/
namespace Windows
variable {κ : Type*} [AddCommGroup κ] [LinearOrder κ]

/-- Within `span` behind each moment there are fewer than `limit` of the earlier ones. -/
def Paced (span : κ) (limit : Nat) (ts : List κ) : Prop :=
  ∀ before t after, ts = before++t :: after → (before.countP fun s => t-span < s)+1≤limit

variable {span : κ} {limit : Nat} {ts : List κ}

theorem Paced.nil : Paced span limit ([] : List κ) := by
  intro before t after h
  simp at h

theorem Paced.snoc (h : Paced span limit ts) {t : κ} (ht : (ts.countP fun s => t-span < s)+1≤limit) :
    Paced span limit (ts++[t]) := by
  intro before u after heq
  cases after using List.reverseRecOn with
  | nil =>
    obtain ⟨rfl, hu⟩ := List.append_inj' heq rfl
    cases hu
    exact ht
  | append_singleton after w =>
    rw [← List.cons_append, ← List.append_assoc] at heq
    obtain ⟨hts, -⟩ := List.append_inj' heq rfl
    exact h before u after hts

theorem Paced.of_snoc {t : κ} (h : Paced span limit (ts++[t])) : Paced span limit ts := by
  intro before u after heq
  exact h before u (after++[t]) (by rw [heq, List.append_assoc, List.cons_append])

/-- A window is narrower than the span: its moments are within the span of each other. -/
theorem Paced.window (h : Paced span limit ts) {p : κ → Bool}
    (narrow : ∀ s t, p s = true → p t = true → t-span < s) : ts.countP p≤limit := by
  induction ts using List.reverseRecOn with
  | nil => exact Nat.zero_le _
  | append_singleton ts t ih =>
    cases hp : p t with
    | false =>
      rw [List.countP_append, List.countP_singleton, hp]
      exact ih h.of_snoc
    | true =>
      have hlast := h ts t [] rfl
      have hmono : ts.countP p≤ts.countP fun s => t-span < s :=
        List.countP_mono_left fun s _ hs => decide_eq_true (narrow s t hs hp)
      rw [List.countP_append, List.countP_singleton, hp]
      simp only [if_true]
      omega

/-- What is kept of the moments: the last of them, all but some that are `span` or more behind `now`. -/
def Kept (span now : κ) (ts kept : List κ) : Prop := ∃ old, ts=old++kept ∧ ∀ t∈old, t≤now-span

namespace Kept
variable {now now' : κ} {kept : List κ}

theorem nil : Kept span now ([] : List κ) [] := ⟨[], rfl, nofun⟩

theorem later [IsOrderedAddMonoid κ] (h : Kept span now ts kept) (hn : now≤now') : Kept span now' ts kept := by
  obtain ⟨old, heq, hold⟩ := h
  exact ⟨old, heq, fun t ht => (hold t ht).trans (sub_le_sub_right hn span)⟩

/-- Of what is kept, a beginning may be dropped that is `span` or more behind. -/
theorem drop {dropped rest : List κ} (h : Kept span now ts (dropped++rest)) (hd : ∀ t∈dropped, t≤now-span) :
    Kept span now ts rest := by
  obtain ⟨old, heq, hold⟩ := h
  refine ⟨old++dropped, by rw [heq, List.append_assoc], fun t ht => ?_⟩
  cases List.mem_append.mp ht with
  | inl ht => exact hold t ht
  | inr ht => exact hd t ht

theorem snoc (h : Kept span now ts kept) (t : κ) : Kept span now (ts++[t]) (kept++[t]) := by
  obtain ⟨old, heq, hold⟩ := h
  exact ⟨old, by rw [heq, List.append_assoc], hold⟩

/-- The moments less than `span` behind are among those kept. -/
theorem countP_le (h : Kept span now ts kept) : (ts.countP fun s => now-span < s)≤kept.length := by
  obtain ⟨old, heq, hold⟩ := h
  have hnone : (old.countP fun s => now-span < s)=0 :=
    List.countP_eq_zero.mpr fun t ht => by simpa using hold t ht
  rw [heq, List.countP_append, hnone, Nat.zero_add]
  exact List.countP_le_length

end Kept
end Windows
