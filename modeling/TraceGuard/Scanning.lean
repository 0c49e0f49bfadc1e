import TraceGuard.Redaction
import TraceGuard.Spans

/-! An engine with the spans that it matches. What a default pattern matches does not start like the replacement, so
a text is its own redaction only when no default pattern matches in it. -/
namespace TraceGuard

structure Scanner extends Re where
  /-- The spans of `pattern.finditer(text)`. -/
  finditer : Pattern → String → List (Nat × Nat)

/-- What `re` documents: matches are found from left to right without overlap, `search` finds one if there is one,
and `sub` replaces them; a backslash in the replacement is an escape. -/
structure Scanner.Lawful (scanner : Scanner) : Prop where
  ordered : ∀ pattern text, Spans.Ordered text.toList.length 0 (scanner.finditer pattern text)
  search : ∀ pattern text, scanner.search pattern text = false ↔ scanner.finditer pattern text = []
  sub : ∀ pattern shown text, '\\'∉shown.toList → (scanner.sub pattern shown text).toList =
    Spans.splice shown.toList 0 (scanner.finditer pattern text) text.toList

/-- What the default patterns match: a text that starts with a letter or a hyphen, and nothing in the replacement. -/
structure Scanner.Standard (scanner : Scanner) : Prop where
  starts : ∀ pattern∈defaultSecretPatterns, ∀ text, ∀ span∈scanner.finditer pattern text,
    span.1<span.2 ∧ text.toList[span.1]?≠some '['
  inert : ∀ pattern∈defaultSecretPatterns, scanner.finditer pattern replacement = []

/-- No default pattern matches in the text. -/
def Re.Clean (re : Re) (text : String) : Prop := ∀ pattern∈defaultSecretPatterns, re.search pattern text = false

/-- The texts are the same up to a place where the second one has the bracket of a replacement. -/
def Diverges (xs ys : List Char) : Prop :=
  ∃ before c after after', xs=before++c :: after ∧ c ≠ '[' ∧ ys=before ++ '[' :: after'

theorem Diverges.ne {xs ys : List Char} (h : Diverges xs ys) : ys≠xs := by
  rintro rfl
  obtain ⟨before, c, after, after', hx, hc, hy⟩ := h
  rw [hx] at hy
  exact hc (List.cons.inj (List.append_cancel_left hy)).1

theorem Diverges.trans {xs ys zs : List Char} (h : Diverges xs ys) (h' : Diverges ys zs) : Diverges xs zs := by
  obtain ⟨before, c, after, after', rfl, hc, rfl⟩ := h
  obtain ⟨before', c', rest, rest', hy, hc', rfl⟩ := h'
  rcases List.append_eq_append_iff.mp hy with ⟨middle, rfl, hm⟩ | ⟨middle, rfl, hm⟩
  · -- the second place is behind the first, or the same
    cases middle with
    | nil => exact absurd (List.cons.inj hm).1.symm hc'
    | cons d middle =>
      obtain ⟨rfl, rfl⟩ := List.cons.inj hm
      exact ⟨before, c, after, middle ++ '[' :: rest', rfl, hc, by simp⟩
  · cases middle with
    | nil => exact absurd (List.cons.inj hm).1 hc'
    | cons d middle =>
      obtain ⟨rfl, rfl⟩ := List.cons.inj hm
      exact ⟨before', c', middle++c :: after, rest', by simp, hc', rfl⟩

namespace Scanner
variable {scanner : Scanner} {pattern : Pattern} {text : String}

theorem Lawful.sub_clean (h : scanner.Lawful) (hc : scanner.search pattern text = false) :
    scanner.sub pattern replacement text = text := by
  refine String.toList_inj.mp ?_
  rw [h.sub _ _ _ (by decide), (h.search _ _).mp hc]
  rfl

theorem Lawful.sub_diverges (h : scanner.Lawful) (hs : scanner.Standard) (hp : pattern∈defaultSecretPatterns)
    (hm : scanner.search pattern text = true) :
    Diverges text.toList (scanner.sub pattern replacement text).toList := by
  have hne : scanner.finditer pattern text≠[] := fun he => by
    rw [(h.search _ _).mpr he] at hm
    cases hm
  obtain ⟨⟨a, b⟩, spans, hspans⟩ := List.exists_cons_of_ne_nil hne
  have ho := h.ordered pattern text
  rw [hspans] at ho
  obtain ⟨hab, hstart⟩ := hs.starts pattern hp text (a, b) (by simp [hspans])
  have ha : a<text.toList.length := by have := ho.2.2.1; dsimp only at hab; omega
  rw [h.sub _ _ _ (by decide), hspans]
  refine ⟨text.toList.take a, text.toList[a], text.toList.drop (a+1), _, ?_, ?_, rfl⟩
  · rw [← List.drop_eq_getElem_cons ha, List.take_append_drop]
  · rintro he
    exact hstart (by rw [List.getElem?_eq_getElem ha, he])

/-- Later patterns do not restore what an earlier one has replaced. -/
theorem Lawful.foldl_diverges (h : scanner.Lawful) (hs : scanner.Standard) {xs : List Char}
    {patterns : List Pattern} (hp : ∀ pattern∈patterns, pattern∈defaultSecretPatterns)
    (hd : Diverges xs text.toList) :
    Diverges xs (patterns.foldl (fun text pattern => scanner.sub pattern replacement text) text).toList := by
  induction patterns generalizing text with
  | nil => exact hd
  | cons pattern patterns ih =>
    rw [List.forall_mem_cons] at hp
    refine ih hp.2 ?_
    dsimp only
    cases hm : scanner.search pattern text with
    | false => rwa [h.sub_clean hm]
    | true => exact hd.trans (h.sub_diverges hs hp.1 hm)

theorem Lawful.foldl_fixed (h : scanner.Lawful) (hs : scanner.Standard) {patterns : List Pattern}
    (hp : ∀ pattern∈patterns, pattern∈defaultSecretPatterns)
    (hf : patterns.foldl (fun text pattern => scanner.sub pattern replacement text) text = text) :
    ∀ pattern∈patterns, scanner.search pattern text = false := by
  induction patterns with
  | nil => simp
  | cons pattern patterns ih =>
    rw [List.forall_mem_cons] at hp
    rw [List.foldl_cons] at hf
    cases hm : scanner.search pattern text with
    | false =>
      rw [h.sub_clean hm] at hf
      exact List.forall_mem_cons.mpr ⟨hm, ih hp.2 hf⟩
    | true =>
      have hd := h.foldl_diverges hs hp.2 (h.sub_diverges hs hp.1 hm)
      exact absurd (congrArg String.toList hf) hd.ne

/-- A text that redaction leaves as it is has no match. -/
theorem Lawful.redactText_fixed (h : scanner.Lawful) (hs : scanner.Standard)
    (hf : scanner.redactText text = text) : scanner.Clean text :=
  h.foldl_fixed hs (fun _ hp => hp) hf

theorem Standard.clean_replacement (h : scanner.Lawful) (hs : scanner.Standard) : scanner.Clean replacement :=
  fun pattern hp => (h.search pattern replacement).mpr (hs.inert pattern hp)

/-! An engine that is given by what it finds: rows with the number of a default pattern, a text and the spans. -/

def found (table : List ((Nat × String) × List (Nat × Nat))) (pattern : Pattern) (text : String) :
    List (Nat × Nat) :=
  (table.lookup ((defaultSecretPatterns.map Pattern.text).idxOf pattern.text, text)).getD []

def ofTable (table : List ((Nat × String) × List (Nat × Nat))) : Scanner where
  search pattern text := !(found table pattern text).isEmpty
  sub pattern shown text := String.ofList (Spans.splice shown.toList 0 (found table pattern text) text.toList)
  finditer := found table

theorem found_mem {table : List ((Nat × String) × List (Nat × Nat))} (pattern : Pattern) (text : String) :
    found table pattern text = [] ∨
      (((defaultSecretPatterns.map Pattern.text).idxOf pattern.text, text), found table pattern text)∈table := by
  unfold found
  cases hl : table.lookup ((defaultSecretPatterns.map Pattern.text).idxOf pattern.text, text) with
  | none => exact Or.inl rfl
  | some spans =>
    obtain ⟨before, after, he, -⟩ := List.lookup_eq_some_iff.mp hl
    exact Or.inr (by simp [he])

theorem ofTable_lawful {table : List ((Nat × String) × List (Nat × Nat))}
    (h : ∀ row∈table, Spans.Ordered row.1.2.toList.length 0 row.2) : (ofTable table).Lawful where
  ordered pattern text := by
    change Spans.Ordered _ 0 (found table pattern text)
    rcases found_mem pattern text with he | hm
    · rw [he]
      trivial
    · exact h _ hm
  search pattern text := by simp [ofTable]
  sub pattern shown text _ := by simp [ofTable]

theorem ofTable_standard {table : List ((Nat × String) × List (Nat × Nat))}
    (h : ∀ row∈table, ∀ span∈row.2, span.1<span.2 ∧ row.1.2.toList[span.1]?≠some '[')
    (hr : ∀ row∈table, row.1.2≠replacement) : (ofTable table).Standard where
  starts pattern _ text span hspan := by
    change span∈found table pattern text at hspan
    rcases found_mem pattern text with he | hm
    · rw [he] at hspan
      cases hspan
    · exact h _ hm span hspan
  inert pattern _ := by
    rcases found_mem pattern replacement with he | hm
    · exact he
    · exact absurd rfl (hr _ hm)

end Scanner
end TraceGuard
