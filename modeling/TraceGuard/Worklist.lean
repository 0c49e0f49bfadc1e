import Mathlib.Algebra.GroupWithZero.Nat
import Mathlib.Algebra.Order.Group.Nat
import Mathlib.Algebra.BigOperators.Group.List.Basic

/-! A walk over a tree with the pending nodes on a stack, within budgets of nodes and of depth. It
ends well exactly when the recursive counts of the tree are within the budgets. -/
namespace Worklist

section
variable {α ε : Type} (children : α → List α) (check : α → Except ε Unit) (spent : ε) (maxDepth : Nat)

/-- The children of a node on top of the stack, the last one first. -/
def push (item : α) (depth : Nat) (stack : List (α × Nat)) : List (α × Nat) :=
  ((children item).map fun child => (child, depth+1)).reverse++stack

/-- The walk with the number of nodes that may still be taken; with its result, how many were. -/
def visit : Nat → List (α × Nat) → Except ε Unit × Nat
  | _, [] => (.ok (), 0)
  | 0, _ :: _ => (.error spent, 1)
  | n+1, (item, depth) :: stack =>
    if maxDepth<depth then (.error spent, 1)
    else match check item with
    | .error e => (.error e, 1)
    | .ok () => ((visit n (push children item depth stack)).1, (visit n (push children item depth stack)).2+1)

end

section
variable {α ε : Type} {children : α → List α} {check : α → Except ε Unit} {spent : ε} {maxDepth : Nat}

theorem visit_taken (n : Nat) (stack : List (α × Nat)) : (visit children check spent maxDepth n stack).2≤n+1 := by
  induction n generalizing stack with
  | zero =>
    cases stack with
    | nil => exact Nat.zero_le _
    | cons e stack => exact le_rfl
  | succ n ih =>
    cases stack with
    | nil => exact Nat.zero_le _
    | cons e stack =>
      unfold visit
      split
      · exact Nat.le_add_left _ _
      split
      · exact Nat.le_add_left _ _
      · exact Nat.succ_le_succ (ih _)

/-- An error of the walk is a spent budget or the error of a node. -/
theorem visit_error {n : Nat} {stack : List (α × Nat)} {e : ε}
    (h : (visit children check spent maxDepth n stack).1 = .error e) : e=spent ∨ ∃ a, check a = .error e := by
  induction n generalizing stack with
  | zero =>
    cases stack with
    | nil => cases h
    | cons entry stack =>
      cases h
      exact Or.inl rfl
  | succ n ih =>
    cases stack with
    | nil => cases h
    | cons entry stack =>
      unfold visit at h
      split at h
      · cases h
        exact Or.inl rfl
      split at h
      · rename_i e' he
        cases h
        exact Or.inr ⟨_, he⟩
      · exact ih h

/-! The counts of a tree, by recursion over its children. -/
variable {size height : α → Nat} {good : α → Prop} {maxNodes : Nat}
  (hsize : ∀ a, size a = ((children a).map size).sum+1)
  (hheight : ∀ a d, d+height a ≤ maxDepth ↔ d ≤ maxDepth ∧ ∀ c∈children a, d+1+height c ≤ maxDepth)
  (hgood : ∀ a, size a ≤ maxNodes → (good a ↔ check a = .ok () ∧ ∀ c∈children a, good c))

/-- What is pending fits: the nodes on the stack, their depths, and what each node must be. -/
def Fits (size height : α → Nat) (good : α → Prop) (maxDepth n : Nat) (stack : List (α × Nat)) : Prop :=
  (stack.map fun e => size e.1).sum≤n ∧ ∀ e∈stack, good e.1 ∧ e.2+height e.1 ≤ maxDepth

include hsize in
theorem push_sum (item : α) (depth : Nat) (stack : List (α × Nat)) :
    ((push children item depth stack).map fun e => size e.1).sum+1 =
      (((item, depth) :: stack).map fun e => size e.1).sum := by
  have hchildren : (((children item).map fun child => (child, depth+1)).map fun e => size e.1).sum =
      ((children item).map size).sum := by
    rw [List.map_map]
    rfl
  have hpush : ((push children item depth stack).map fun e => size e.1).sum =
      ((children item).map size).sum+(stack.map fun e => size e.1).sum := by
    rw [push, List.map_append, List.sum_append, List.map_reverse, List.sum_reverse, hchildren]
  rw [hpush, List.map_cons, List.sum_cons, hsize item]
  omega

theorem push_mem {item : α} {depth : Nat} {stack : List (α × Nat)} {p : α × Nat → Prop} :
    (∀ e∈push children item depth stack, p e) ↔
      (∀ c∈children item, p (c, depth+1)) ∧ ∀ e∈stack, p e := by
  simp only [push, List.mem_append, List.mem_reverse, List.mem_map]
  constructor
  · intro h
    exact ⟨fun c hc => h _ (Or.inl ⟨c, hc, rfl⟩), fun e he => h e (Or.inr he)⟩
  · rintro ⟨hchildren, hstack⟩ e (⟨c, hc, rfl⟩ | he)
    · exact hchildren c hc
    · exact hstack e he

include hsize in
theorem size_pos (a : α) : 0<size a := by
  rw [hsize]
  exact Nat.succ_pos _

include hsize hheight hgood

/-- Taking a good node off the stack and pushing its children changes nothing about the fit. -/
theorem fits_push {n depth : Nat} {item : α} {stack : List (α × Nat)} (hn : n+1 ≤ maxNodes) :
    Fits size height good maxDepth (n+1) ((item, depth) :: stack) ↔
      depth ≤ maxDepth ∧ check item = .ok () ∧
        Fits size height good maxDepth n (push children item depth stack) := by
  have hsum := push_sum hsize item depth stack
  unfold Fits
  rw [push_mem, List.forall_mem_cons, ← hsum, Nat.add_le_add_iff_right]
  have hitem (hle : ((push children item depth stack).map fun e => size e.1).sum≤n) :
      size item ≤ maxNodes := by
    rw [List.map_cons, List.sum_cons] at hsum
    dsimp only at hsum
    omega
  constructor
  · rintro ⟨hle, ⟨hg, hd⟩, hstack⟩
    obtain ⟨hok, hchildren⟩ := (hgood item (hitem hle)).mp hg
    obtain ⟨hdepth, hbelow⟩ := (hheight item depth).mp hd
    exact ⟨hdepth, hok, hle, fun c hc => ⟨hchildren c hc, hbelow c hc⟩, hstack⟩
  · rintro ⟨hdepth, hok, hle, hchildren, hstack⟩
    refine ⟨hle, ⟨(hgood item (hitem hle)).mpr ⟨hok, fun c hc => (hchildren c hc).1⟩, ?_⟩, hstack⟩
    exact (hheight item depth).mpr ⟨hdepth, fun c hc => (hchildren c hc).2⟩

/-- The walk ends well exactly when what is pending fits. -/
theorem visit_ok {n : Nat} {stack : List (α × Nat)} (hn : n ≤ maxNodes) :
    (visit children check spent maxDepth n stack).1 = .ok () ↔ Fits size height good maxDepth n stack := by
  induction n generalizing stack with
  | zero =>
    cases stack with
    | nil => simp [visit, Fits]
    | cons e stack =>
      have hpos := size_pos hsize e.1
      simp only [visit, reduceCtorEq, Fits, List.map_cons, List.sum_cons, false_iff, not_and]
      omega
  | succ n ih =>
    cases stack with
    | nil => simp [visit, Fits]
    | cons e stack =>
      obtain ⟨item, depth⟩ := e
      rw [fits_push hsize hheight hgood hn, ← ih (Nat.le_of_succ_le hn)]
      by_cases hover : maxDepth<depth
      · simp [visit, hover, Nat.not_le.mpr hover]
      · cases hcheck : check item with
        | error e => simp [visit, hover, hcheck]
        | ok u => simp [visit, hover, hcheck, Nat.le_of_not_lt hover]

end
end Worklist
