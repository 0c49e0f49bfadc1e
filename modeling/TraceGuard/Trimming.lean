import Mathlib.Data.List.TakeWhile

/-! Lists without the elements of a kind at their ends. -/
namespace Trimming
variable {α : Type*} {p : α → Bool} {xs before after : List α}

def trim (p : α → Bool) (xs : List α) : List α := ((xs.dropWhile p).reverse.dropWhile p).reverse

/-- No element of the kind stands at an end. -/
structure Bounded (p : α → Bool) (xs : List α) : Prop where
  head : ∀ x, xs.head?=some x → p x=false
  last : ∀ x, xs.getLast?=some x → p x=false

theorem dropWhile_split (p : α → Bool) (xs : List α) :
    ∃ before, xs=before++xs.dropWhile p ∧ ∀ x∈before, p x=true :=
  ⟨xs.takeWhile p, List.takeWhile_append_dropWhile.symm, fun _ => List.mem_takeWhile_imp⟩

theorem dropWhile_head (x : α) (h : (xs.dropWhile p).head?=some x) : p x=false := by
  have := List.head?_dropWhile_not p xs
  rw [h] at this
  simpa using this

/-- What is trimmed off is of the kind. -/
theorem trim_split (p : α → Bool) (xs : List α) :
    ∃ before after, xs=before++trim p xs++after ∧ (∀ x∈before, p x=true) ∧ ∀ x∈after, p x=true := by
  obtain ⟨before, hbefore, hall⟩ := dropWhile_split p xs
  obtain ⟨after, hafter, hall'⟩ := dropWhile_split p (xs.dropWhile p).reverse
  have hmiddle := congrArg List.reverse hafter
  rw [List.reverse_reverse, List.reverse_append] at hmiddle
  refine ⟨before, after.reverse, ?_, hall, fun x hx => hall' x (List.mem_reverse.mp hx)⟩
  rw [trim, List.append_assoc, ← hmiddle]
  exact hbefore

theorem trim_bounded (p : α → Bool) (xs : List α) : Bounded p (trim p xs) := by
  have hlast : ∀ x, (trim p xs).getLast?=some x → p x=false := by
    intro x hx
    rw [trim, List.getLast?_reverse] at hx
    exact dropWhile_head x hx
  refine ⟨fun x hx => ?_, hlast⟩
  obtain ⟨after, hafter, -⟩ := dropWhile_split p (xs.dropWhile p).reverse
  have hmiddle := congrArg List.reverse hafter
  rw [List.reverse_reverse, List.reverse_append, ← trim] at hmiddle
  refine @dropWhile_head α p xs x ?_
  rw [hmiddle, List.head?_append, hx, Option.some_or]

theorem dropWhile_bounded (hall : ∀ x∈before, p x=true) (h : ∀ x, xs.head?=some x → p x=false) :
    (before++xs).dropWhile p=xs := by
  rw [List.dropWhile_append_of_pos hall]
  cases xs with
  | nil => rfl
  | cons x xs => rw [List.dropWhile_cons_of_neg]; simp [h x rfl]

theorem trim_between (h : Bounded p xs) (hbefore : ∀ x∈before, p x=true) (hafter : ∀ x∈after, p x=true) :
    trim p (before++xs++after)=xs := by
  cases xs with
  | nil =>
    have hall : ∀ x∈before++[]++after, p x=true := by
      intro x hx
      rw [List.append_nil, List.mem_append] at hx
      exact hx.elim (hbefore x) (hafter x)
    rw [trim, List.dropWhile_eq_nil_iff.mpr hall]
    rfl
  | cons x xs =>
    have hfirst : (before++(x :: xs)++after).dropWhile p=x :: xs++after := by
      rw [List.append_assoc]
      exact dropWhile_bounded hbefore h.head
    have hsecond : (x :: xs++after).reverse.dropWhile p=(x :: xs).reverse := by
      rw [List.reverse_append]
      refine dropWhile_bounded (fun y hy => hafter y (List.mem_reverse.mp hy)) fun y hy => h.last y ?_
      rwa [List.head?_reverse] at hy
    rw [trim, hfirst, hsecond, List.reverse_reverse]

theorem trim_eq (h : Bounded p xs) : trim p xs=xs := by
  have := @trim_between α p xs [] [] h (List.forall_mem_nil _) (List.forall_mem_nil _)
  rwa [List.nil_append, List.append_nil] at this

end Trimming
