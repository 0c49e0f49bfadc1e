import Mathlib.Data.List.DropRight
import Mathlib.Data.String.Basic

/-! Texts and lists split at a character, and lists below one another: equal, or beginning with the other
one up to a separator. -/
namespace String

/-- The parts before position `l.length`, the part that has begun and the rest. -/
theorem splitOnAux_of_valid (c : Char) (l m r : List Char) (acc : List String) :
    splitOnAux (ofList (l++m++r)) (ofList [c]) ⟨utf8Len l⟩ ⟨utf8Len l+utf8Len m⟩ 0 acc =
      acc.reverse++(List.splitOnPPrepend (· == c) r m.reverse).map ofList := by
  have hwhole : utf8Len (l++m) = utf8Len l+utf8Len m := utf8Len_append l m
  have hend := atEnd_of_valid (l++m) r
  rw [hwhole] at hend
  unfold splitOnAux
  cases r with
  | nil =>
    rw [if_pos (hend.mpr rfl)]
    simpa using extract_of_valid l m []
  | cons d r =>
    have hget : Pos.Raw.get (ofList (l++m++d :: r)) ⟨utf8Len l+utf8Len m⟩ = d :=
      hwhole ▸ get_of_valid (l++m) (d :: r)
    have hnext : Pos.Raw.next (ofList (l++m++d :: r)) ⟨utf8Len l+utf8Len m⟩ =
        ⟨utf8Len l+utf8Len m+d.utf8Size⟩ := hwhole ▸ next_of_valid (l++m) d r
    have hhead : Pos.Raw.get (ofList [c]) 0 = c := get_of_valid [] [c]
    have hrest : Pos.Raw.next (ofList [c]) 0 = ⟨c.utf8Size⟩ := by simpa using next_of_valid [] c []
    have hlast : Pos.Raw.atEnd (ofList [c]) ⟨c.utf8Size⟩ = true := by
      simpa using (atEnd_of_valid [c] []).mpr rfl
    rw [if_neg (fun h => by cases hend.mp h), hget, hnext, hhead, hrest]
    by_cases h : d=c
    · subst h
      have hback : (⟨utf8Len l+utf8Len m+d.utf8Size⟩ : Pos.Raw).unoffsetBy ⟨d.utf8Size⟩ =
          ⟨utf8Len l+utf8Len m⟩ := by simp [Pos.Raw.unoffsetBy]
      have ih := splitOnAux_of_valid d (l++m++[d]) [] r (ofList m :: acc)
      simp only [beq_self_eq_true, if_true, hlast, hback, extract_of_valid l m (d :: r)]
      simpa [utf8Len_append, Nat.add_assoc, List.splitOnPPrepend_cons_eq_if] using ih
    · have hback : Pos.Raw.next (ofList (l++m++d :: r))
          ((⟨utf8Len l+utf8Len m⟩ : Pos.Raw).unoffsetBy 0) = ⟨utf8Len l+utf8Len m+d.utf8Size⟩ := by
        simpa [Pos.Raw.unoffsetBy] using hnext
      have ih := splitOnAux_of_valid c l (m++[d]) r acc
      simp only [beq_iff_eq, h, if_false, hback]
      simpa [utf8Len_append, Nat.add_assoc, List.splitOnPPrepend_cons_eq_if, h] using ih
termination_by r.length

theorem splitOn_char (s : String) (c : Char) :
    s.splitOn (ofList [c]) = (s.toList.splitOn c).map ofList := by
  have h := splitOnAux_of_valid c [] [] s.toList []
  rw [List.nil_append, List.nil_append, ofList_toList] at h
  have hne : (ofList [c] == "") = false := by simp
  unfold String.splitOn
  rw [hne]
  exact h

end String

namespace List
variable {α : Type} [DecidableEq α] {c : α} {scope middle target further : List α}

/-- The target is the scope, or what follows the scope's own separator. -/
def Below (c : α) (scope target : List α) : Prop :=
  target=scope ∨ scope.rdropWhile (· = c)++[c] <+: target

theorem Below.refl : Below c scope scope := Or.inl rfl

omit [DecidableEq α] in
theorem rdropWhile_append (p : α → Bool) (l l' : List α) : (l++l').rdropWhile p =
    if l'.all p then l.rdropWhile p else l++l'.rdropWhile p := by
  induction l' using List.reverseRecOn with
  | nil => simp
  | append_singleton l' x ih =>
    rw [← append_assoc, rdropWhile_concat, rdropWhile_concat]
    by_cases hx : p x = true
    · simp [hx, ih]
    · simp [hx]

theorem Below.trans (h : Below c scope middle) (h' : Below c middle target) : Below c scope target := by
  rcases h with rfl | ⟨rest, rfl⟩
  · exact h'
  rcases h' with rfl | h'
  · exact Or.inr (prefix_append _ _)
  refine Or.inr (IsPrefix.trans ?_ h')
  rw [rdropWhile_append]
  split
  · have hstrip := rdropWhile_concat_pos (· = c) (scope.rdropWhile (· = c)) c (by simp)
    simp only [hstrip, rdropWhile_idempotent, prefix_rfl]
  · rw [append_assoc]
    exact prefix_append _ _

theorem rdropWhile_of_getLast (h : scope.getLast?≠some c) : scope.rdropWhile (· = c)=scope := by
  refine rdropWhile_eq_self_iff.mpr fun hne hlast => h ?_
  rw [getLast?_eq_some_getLast hne, of_decide_eq_true hlast]

/-- A list that ends with the separator begins with itself up to it. -/
theorem rdropWhile_concat_starts (h : scope.getLast? = some c) :
    scope.rdropWhile (· = c)++[c] <+: scope := by
  induction scope using List.reverseRecOn with
  | nil => cases h
  | append_singleton l x ih =>
    obtain rfl : x=c := by simpa using h
    rw [rdropWhile_concat_pos _ _ _ (by simp)]
    by_cases hl : l.getLast? = some x
    · exact (ih hl).trans (prefix_append _ _)
    · simp only [rdropWhile_of_getLast hl, prefix_rfl]

/-- What is below stays below when parts are added. -/
theorem Below.append (h : Below c scope target)
    (hpart : further.head? = some c ∨ target.getLast? = some c) : Below c scope (target++further) := by
  rcases h with rfl | h
  · by_cases hlast : target.getLast? = some c
    · exact Or.inr ((rdropWhile_concat_starts hlast).trans (prefix_append _ _))
    · rcases hpart with hhead | hno
      · obtain ⟨rest, rfl⟩ := head?_eq_some_iff.mp hhead
        rw [Below, rdropWhile_of_getLast hlast]
        exact Or.inr ⟨rest, by simp⟩
      · exact absurd hno hlast
  · exact Or.inr (h.trans (prefix_append _ _))

/-- A last part that is made longer is not below. -/
theorem not_below_append (hlast : scope.getLast?≠some c) (hne : further≠[])
    (hhead : further.head?≠some c) : ¬Below c scope (scope++further) := by
  rintro (h | h)
  · exact hne (by simpa using h)
  · rw [rdropWhile_of_getLast hlast, prefix_append_right_inj] at h
    obtain ⟨rest, rfl⟩ := h
    exact hhead rfl

/-- The parts of a scope, without the empty ones at its end, are the first parts of what is below. -/
theorem Below.parts (h : Below c scope target) :
    (scope.splitOn c).rdropWhile (· = []) <+: target.splitOn c := by
  rcases h with rfl | ⟨rest, rfl⟩
  · exact rdropWhile_prefix _ _
  · have hparts : ∀ k, ((scope.rdropWhile (· = c)++replicate k c).splitOn c).rdropWhile (· = []) <+:
        (scope.rdropWhile (· = c)).splitOn c := fun k => by
      induction k with
      | zero =>
        rw [replicate_zero, append_nil]
        exact rdropWhile_prefix _ _
      | succ k ih =>
        rw [replicate_succ', ← append_assoc, splitOn_append_cons_self, splitOn_nil,
          rdropWhile_concat_pos _ _ _ (by simp)]
        exact ih
    have hslashes : scope.rtakeWhile (· = c) = replicate (scope.rtakeWhile (· = c)).length c :=
      eq_replicate_iff.mpr ⟨rfl, fun x hx => by simpa using mem_rtakeWhile_imp hx⟩
    have hscope := hparts (scope.rtakeWhile (· = c)).length
    rw [← hslashes, rdropWhile_append_rtakeWhile] at hscope
    rw [append_assoc, singleton_append, splitOn_append_cons_self]
    exact hscope.trans (prefix_append _ _)

end List
