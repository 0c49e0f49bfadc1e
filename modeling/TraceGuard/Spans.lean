import Mathlib.Data.List.Infix

/-! Lists with spans of them replaced. The pieces of a rewritten list say which elements are still those of the
original list and what stands for the others. -/
namespace Spans
variable {α : Type*}

/-- Put `shown` for every span; `start` is the position of the first element. -/
def splice (shown : List α) : Nat → List (Nat × Nat) → List α → List α
  | _, [], xs => xs
  | start, (a, b) :: spans, xs => xs.take (a-start)++(shown++splice shown b spans (xs.drop (b-start)))

/-- Spans from left to right that do not overlap, of a list that ends at `length`. -/
def Ordered (length : Nat) : Nat → List (Nat × Nat) → Prop
  | _, [] => True
  | start, (a, b) :: spans => start≤a ∧ a≤b ∧ b≤length ∧ Ordered length b spans

theorem Ordered.bound {length start : Nat} {spans : List (Nat × Nat)} (h : Ordered length start spans) :
    ∀ span∈spans, start ≤ span.1 ∧ span.1 ≤ span.2 ∧ span.2≤length := by
  induction spans generalizing start with
  | nil => simp
  | cons span spans ih =>
    obtain ⟨a, b⟩ := span
    obtain ⟨hstart, hab, hb, hrest⟩ := h
    refine List.forall_mem_cons.mpr ⟨⟨hstart, hab, hb⟩, fun s hs => ?_⟩
    have := ih hrest s hs
    exact ⟨by omega, this.2⟩

/-- An element of the original list, or what is shown for a part of it. -/
inductive Piece (α : Type*) where
  | kept (x : α)
  | cut (original shown : List α)

namespace Piece

def original : Piece α → List α
  | kept x => [x]
  | cut original _ => original

def shown : Piece α → List α
  | kept x => [x]
  | cut _ shown => shown

/-- Where the element of the piece stands in it, if it is kept. -/
def start : Piece α → Option Nat
  | kept _ => some 0
  | cut _ _ => none

end Piece

def originals (ps : List (Piece α)) : List α := ps.flatMap Piece.original

def showns (ps : List (Piece α)) : List α := ps.flatMap Piece.shown

section
variable (p : Piece α) (ps qs : List (Piece α))

@[simp] theorem originals_nil : originals ([] : List (Piece α)) = [] := rfl
@[simp] theorem showns_nil : showns ([] : List (Piece α)) = [] := rfl
@[simp] theorem originals_cons : originals (p :: ps) = p.original++originals ps := rfl
@[simp] theorem showns_cons : showns (p :: ps) = p.shown++showns ps := rfl
@[simp] theorem originals_append : originals (ps++qs) = originals ps++originals qs := List.flatMap_append
@[simp] theorem showns_append : showns (ps++qs) = showns ps++showns qs := List.flatMap_append

end

/-- Where an element of the original list still stands. -/
def place : List (Piece α) → Nat → Option Nat
  | [], _ => none
  | p :: ps, i =>
    if i<p.original.length then p.start
    else (place ps (i-p.original.length)).map (·+p.shown.length)

theorem place_append (ps qs : List (Piece α)) (i : Nat) : place (ps++qs) i =
    if i<(originals ps).length then place ps i
    else (place qs (i-(originals ps).length)).map (·+(showns ps).length) := by
  induction ps generalizing i with
  | nil => simp
  | cons p ps ih =>
    rw [List.cons_append, place, place, ih, originals_cons, showns_cons, List.length_append, List.length_append]
    by_cases hi : i<p.original.length
    · rw [if_pos hi, if_pos hi, if_pos (by omega)]
    · have hlt : i-p.original.length<(originals ps).length ↔
          i<p.original.length+(originals ps).length := by omega
      have hsub : i-p.original.length-(originals ps).length =
          i-(p.original.length+(originals ps).length) := by omega
      rw [if_neg hi, if_neg hi]
      by_cases h : i-p.original.length<(originals ps).length
      · rw [if_pos h, if_pos (hlt.mp h)]
      · rw [if_neg h, if_neg (mt hlt.mpr h), hsub, Option.map_map]
        refine congrArg (fun f => Option.map f _) (funext fun j => ?_)
        show j+(showns ps).length+p.shown.length = j+(p.shown.length+(showns ps).length)
        omega

theorem place_lt {ps : List (Piece α)} {i j : Nat} (h : place ps i = some j) :
    i<(originals ps).length ∧ j<(showns ps).length := by
  induction ps generalizing i j with
  | nil => cases h
  | cons p ps ih =>
    rw [place] at h
    rw [originals_cons, showns_cons, List.length_append, List.length_append]
    split at h
    · rename_i hi
      cases p with
      | kept x =>
        cases h
        simp only [Piece.original, Piece.shown, List.length_singleton] at hi ⊢
        omega
      | cut original shown => cases h
    · obtain ⟨k, hk, rfl⟩ := Option.map_eq_some_iff.mp h
      have := ih hk
      omega

/-- A list of which nothing is left is cut everywhere. -/
theorem cut_of_place {ps : List (Piece α)} (h : ∀ i < (originals ps).length, place ps i = none) :
    ∀ p∈ps, ∃ original shown, p=.cut original shown := by
  intro p hp
  cases p with
  | cut original shown => exact ⟨original, shown, rfl⟩
  | kept x =>
    obtain ⟨before, after, rfl⟩ := List.append_of_mem hp
    have hlast := h (originals before).length (by simp [Piece.original])
    rw [place_append, if_neg (Nat.lt_irrefl _), Nat.sub_self, place] at hlast
    cases hlast

/-! Replacing spans of what is shown. -/

/-- The pieces that make up the first `n` elements shown, and the others. -/
def take : Nat → List (Piece α) → List (Piece α) × List (Piece α)
  | _, [] => ([], [])
  | n, p :: ps =>
    if p.shown.length≤n ∧ 0<n then (p :: (take (n-p.shown.length) ps).1, (take (n-p.shown.length) ps).2)
    else ([], p :: ps)

theorem take_append (n : Nat) (ps : List (Piece α)) : (take n ps).1++(take n ps).2 = ps := by
  induction ps generalizing n with
  | nil => rfl
  | cons p ps ih =>
    rw [take]
    split
    · rw [List.cons_append, ih]
    · rfl

/-- Put `shown` for every span of what the pieces show. -/
def recut (shown : List α) : Nat → List (Nat × Nat) → List (Piece α) → List (Piece α)
  | _, [], ps => ps
  | start, (a, b) :: spans, ps =>
    let rest := (take (a-start) ps).2
    (take (a-start) ps).1++.cut (originals (take (b-a) rest).1) shown ::
      recut shown b spans (take (b-a) rest).2

/-- No span ends within what is shown for another. -/
def Aligned : Nat → List (Nat × Nat) → List (Piece α) → Prop
  | _, [], _ => True
  | start, (a, b) :: spans, ps =>
    let rest := (take (a-start) ps).2
    (showns (take (a-start) ps).1).length=a-start ∧ (showns (take (b-a) rest).1).length=b-a ∧
      Aligned b spans (take (b-a) rest).2

section
variable {shown : List α} {start : Nat} {spans : List (Nat × Nat)} {ps : List (Piece α)}

/-- The original list stays. -/
theorem recut_originals : originals (recut shown start spans ps) = originals ps := by
  induction spans generalizing start ps with
  | nil => rfl
  | cons span spans ih =>
    obtain ⟨a, b⟩ := span
    rw [recut, originals_append, originals_cons, ih, Piece.original, ← originals_append, take_append,
      ← originals_append, take_append]

/-- The pieces before a span, of it and behind it. -/
theorem split_pieces (a b start : Nat) (ps : List (Piece α)) :
    (take (a-start) ps).1++((take (b-a) (take (a-start) ps).2).1++(take (b-a) (take (a-start) ps).2).2) = ps := by
  rw [take_append, take_append]

/-- What is shown has the spans replaced. -/
theorem recut_showns {length : Nat} (ho : Ordered length start spans) (h : Aligned start spans ps) :
    showns (recut shown start spans ps) = splice shown start spans (showns ps) := by
  induction spans generalizing start ps with
  | nil => rfl
  | cons span spans ih =>
    obtain ⟨a, b⟩ := span
    obtain ⟨hstart, hab, -, ho⟩ := ho
    obtain ⟨hbefore, hspan, h⟩ := h
    have hall : showns ps = showns (take (a-start) ps).1++(showns (take (b-a) (take (a-start) ps).2).1++
        showns (take (b-a) (take (a-start) ps).2).2) := by
      rw [← showns_append, ← showns_append, split_pieces]
    have htake : (showns ps).take (a-start) = showns (take (a-start) ps).1 := by
      rw [hall, List.take_left' hbefore]
    have hdrop : (showns ps).drop (b-start) = showns (take (b-a) (take (a-start) ps).2).2 := by
      rw [hall, ← List.append_assoc, List.drop_left' (by rw [List.length_append]; omega)]
    rw [recut, splice, showns_append, showns_cons, ih ho h, Piece.shown, htake, hdrop]

theorem recut_mem {p : Piece α} (h : p∈recut shown start spans ps) :
    p∈ps ∨ ∃ original, p=.cut original shown := by
  induction spans generalizing start ps with
  | nil => exact Or.inl h
  | cons span spans ih =>
    obtain ⟨a, b⟩ := span
    have hps := split_pieces a b start ps
    rw [recut] at h
    rcases List.mem_append.mp h with h | h
    · exact Or.inl (hps ▸ List.mem_append_left _ h)
    rcases List.mem_cons.mp h with h | h
    · exact Or.inr ⟨_, h⟩
    · exact (ih h).imp_left fun hm => hps ▸ List.mem_append_right _ (List.mem_append_right _ hm)

/-- What was replaced stays replaced. -/
theorem recut_keeps {i : Nat} (hn : place ps i = none) : place (recut shown start spans ps) i = none := by
  induction spans generalizing start ps i with
  | nil => exact hn
  | cons span spans ih =>
    obtain ⟨a, b⟩ := span
    rw [← split_pieces a b start ps, place_append, place_append] at hn
    rw [recut, place_append, place]
    split
    · rename_i hi
      rwa [if_pos hi] at hn
    · rename_i hi
      rw [if_neg hi] at hn
      split
      · rfl
      · rename_i hi'
        change ¬ i-_<(originals _).length at hi'
        rw [if_neg hi', Option.map_map, Option.map_eq_none_iff] at hn
        rw [Option.map_map, Option.map_eq_none_iff]
        exact ih hn

/-- What is shown in one of the spans is replaced. -/
theorem recut_covers {length i j : Nat} (ho : Ordered length start spans) (h : Aligned start spans ps)
    (hp : place ps i = some j) {span : Nat × Nat} (hm : span∈spans) (hj : span.1 ≤ start+j ∧ start+j<span.2) :
    place (recut shown start spans ps) i = none := by
  induction spans generalizing start ps i j with
  | nil => cases hm
  | cons first spans ih =>
    obtain ⟨a, b⟩ := first
    obtain ⟨hstart, hab, -, ho⟩ := ho
    obtain ⟨hbefore, hspan, h⟩ := h
    have hbehind : ∀ s∈spans, b ≤ s.1 := fun s hs => (ho.bound s hs).1
    rw [← split_pieces a b start ps, place_append, place_append] at hp
    rw [recut, place_append, place]
    split
    · rename_i hi
      rw [if_pos hi] at hp
      have := (place_lt hp).2
      rcases List.mem_cons.mp hm with rfl | hm
      · omega
      · have := hbehind _ hm
        omega
    · rename_i hi
      rw [if_neg hi] at hp
      split
      · rfl
      · rename_i hi'
        change ¬ i-_<(originals _).length at hi'
        rw [if_neg hi', Option.map_map] at hp
        obtain ⟨k, hk, rfl⟩ := Option.map_eq_some_iff.mp hp
        simp only [Function.comp_apply, hbefore, hspan] at hj
        rw [Option.map_map, Option.map_eq_none_iff]
        rcases List.mem_cons.mp hm with rfl | hm
        · dsimp only at hj
          omega
        · exact ih ho h hk hm (by omega)

end

/-! Alternatives, of which at each place the first that stands there is replaced. -/
section
variable [DecidableEq α] (alternatives : List (List α × List α))

/-- `skip` elements belong to what was replaced last. -/
def substitute : Nat → List α → List α
  | _, [] => []
  | skip+1, _ :: xs => substitute skip xs
  | 0, x :: xs =>
    match alternatives.find? fun e => e.1.isPrefixOf (x :: xs) with
    | some e => e.2++substitute (e.1.length-1) xs
    | none => x :: substitute 0 xs

/-- The pieces of the list with the alternatives replaced. -/
def cuts : Nat → List α → List (Piece α)
  | _, [] => []
  | skip+1, _ :: xs => cuts skip xs
  | 0, x :: xs =>
    match alternatives.find? fun e => e.1.isPrefixOf (x :: xs) with
    | some e => .cut e.1 e.2 :: cuts (e.1.length-1) xs
    | none => .kept x :: cuts 0 xs

theorem cuts_showns (skip : Nat) (xs : List α) :
    showns (cuts alternatives skip xs) = substitute alternatives skip xs := by
  induction xs generalizing skip with
  | nil => cases skip <;> rfl
  | cons x xs ih =>
    cases skip with
    | succ skip => exact ih skip
    | zero =>
      rw [cuts, substitute]
      cases alternatives.find? fun e => e.1.isPrefixOf (x :: xs) with
      | some e => exact congrArg (e.2++·) (ih _)
      | none => exact congrArg (x :: ·) (ih 0)

variable {alternatives}

theorem find_stands {xs : List α} {e : List α × List α}
    (h : alternatives.find? (fun e => e.1.isPrefixOf xs) = some e) : e∈alternatives ∧ e.1 <+: xs := by
  have hp := List.find?_some h
  exact ⟨List.mem_of_find?_eq_some h, List.isPrefixOf_iff_prefix.mp hp⟩

theorem cuts_originals (hne : ∀ e∈alternatives, e.1≠[]) (skip : Nat) (xs : List α) :
    originals (cuts alternatives skip xs) = xs.drop skip := by
  induction xs generalizing skip with
  | nil => cases skip <;> rfl
  | cons x xs ih =>
    cases skip with
    | succ skip => exact ih skip
    | zero =>
      rw [cuts, List.drop_zero]
      cases hf : alternatives.find? fun e => e.1.isPrefixOf (x :: xs) with
      | some e =>
        obtain ⟨hm, rest, hrest⟩ := find_stands hf
        obtain ⟨y, ys, hy⟩ := List.exists_cons_of_ne_nil (hne e hm)
        rw [hy, List.cons_append, List.cons.injEq] at hrest
        obtain ⟨rfl, rfl⟩ := hrest
        rw [originals_cons, ih, Piece.original, hy, List.length_cons, Nat.add_sub_cancel, List.drop_left,
          List.cons_append]
      | none => exact congrArg (x :: ·) (ih 0)

/-- Only alternatives are replaced, each by what stands for it. -/
theorem cuts_mem {skip : Nat} {xs original shown : List α}
    (h : .cut original shown∈cuts alternatives skip xs) : (original, shown)∈alternatives := by
  induction xs generalizing skip with
  | nil => cases skip <;> cases h
  | cons x xs ih =>
    cases skip with
    | succ skip => exact ih h
    | zero =>
      rw [cuts] at h
      cases hf : alternatives.find? fun e => e.1.isPrefixOf (x :: xs) with
      | some e =>
        rw [hf] at h
        rcases List.mem_cons.mp h with he | h
        · cases he
          exact List.mem_of_find?_eq_some hf
        · exact ih h
      | none =>
        rw [hf] at h
        rcases List.mem_cons.mp h with he | h
        · cases he
        · exact ih h

/-- Of alternatives in order of length, none that stands where the first is found is longer. -/
theorem find_longest (hs : alternatives.Pairwise fun e e' => e'.1.length≤e.1.length) {xs raw : List α}
    {e : List α × List α} (hf : alternatives.find? (fun e => e.1.isPrefixOf xs) = some e)
    (hraw : raw∈alternatives.map Prod.fst) (hp : raw <+: xs) : raw.length≤e.1.length := by
  obtain ⟨other, hm, rfl⟩ := List.mem_map.mp hraw
  obtain ⟨before, after, rfl, hbefore⟩ := (List.find?_eq_some_iff_append.mp hf).2
  rcases List.mem_append.mp hm with hm | hm
  · have hnot := hbefore other hm
    rw [List.isPrefixOf_iff_prefix.mpr hp] at hnot
    cases hnot
  rcases List.mem_cons.mp hm with rfl | hm
  · exact le_rfl
  · exact (List.pairwise_cons.mp (List.pairwise_append.mp hs).2.1).1 _ hm

/-- What an alternative stands for is replaced as a whole, unless another one starts before it and ends in it. -/
theorem cuts_covers (hne : ∀ e∈alternatives, e.1≠[])
    (hs : alternatives.Pairwise fun e e' => e'.1.length≤e.1.length) {raw : List α}
    (hraw : raw∈alternatives.map Prod.fst) {skip a : Nat} {xs : List α} (ha : skip≤a) (hp : raw <+: xs.drop a)
    (hover : ∀ e∈alternatives, ∀ c, e.1 <+: xs.drop c → c<a → a<c+e.1.length →
      a+raw.length ≤ c+e.1.length) {i : Nat} (hi : a ≤ i ∧ i<a+raw.length) :
    place (cuts alternatives skip xs) (i-skip) = none := by
  induction xs generalizing skip a i with
  | nil => cases skip <;> rfl
  | cons x xs ih =>
    -- behind the first element everything is one place further left
    have later {k : Nat} (ha : k+1≤a) : place (cuts alternatives k xs) (i-1-k) = none := by
      obtain ⟨a, rfl⟩ : ∃ a', a=a'+1 := ⟨a-1, by omega⟩
      refine @ih k a (by omega) (by simpa using hp) (fun e he c hc hlt hgt => ?_) (i-1) (by omega)
      have := hover e he (c+1) (by simpa using hc) (by omega) (by omega)
      omega
    cases skip with
    | succ skip =>
      have hsub : i-(skip+1) = i-1-skip := by omega
      rw [hsub]
      exact later ha
    | zero =>
      rw [cuts, Nat.sub_zero]
      cases hf : alternatives.find? fun e => e.1.isPrefixOf (x :: xs) with
      | some e =>
        obtain ⟨hm, hstands⟩ := find_stands hf
        have hlength := List.length_pos_iff.mpr (hne e hm)
        dsimp only
        rw [place]
        change (if i<e.1.length then none else _) = none
        split
        · rfl
        rename_i hbehind
        have hstart : e.1.length≤a := by
          by_contra hlt
          rcases Nat.eq_zero_or_pos a with rfl | hpos
          · have := find_longest hs hf hraw hp
            omega
          · have := hover e hm 0 hstands hpos (by omega)
            omega
        have hsub : i-e.1.length = i-1-(e.1.length-1) := by omega
        change (place (cuts alternatives (e.1.length-1) xs) (i-e.1.length)).map _ = none
        rw [hsub, later (by omega)]
        rfl
      | none =>
        have hpos : 0<a := by
          by_contra hzero
          obtain rfl : a=0 := by omega
          obtain ⟨e, hm, rfl⟩ := List.mem_map.mp hraw
          exact absurd (List.isPrefixOf_iff_prefix.mpr hp) (by simpa using List.find?_eq_none.mp hf e hm)
        dsimp only
        rw [place]
        change (if i<1 then _ else (place (cuts alternatives 0 xs) (i-1)).map _) = none
        rw [if_neg (by omega), ← Nat.sub_zero (i-1), later (by omega)]
        rfl

end

end Spans
