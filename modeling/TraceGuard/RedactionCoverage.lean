import TraceGuard.RequestRedaction

/-! What redaction covers. The pieces of a redacted text say which intervals are replaced; one pattern after the other
replaces what it still finds, and labels replace whole texts from left to right. -/
namespace TraceGuard
open Spans

/-- The result is the text with disjoint intervals replaced by labels. -/
structure Rewrites (labels : List Char → Prop) (text result : String) (pieces : List (Piece Char)) : Prop where
  original : originals pieces = text.toList
  shown : showns pieces = result.toList
  labelled : ∀ original shown, .cut original shown∈pieces → labels shown

/-- Nothing of the span is left. -/
def Covered (pieces : List (Piece Char)) (span : Nat × Nat) : Prop :=
  ∀ i, span.1 ≤ i → i<span.2 → place pieces i = none

/-- The result is the text with disjoint intervals replaced that contain every match of the patterns. -/
def Covers (scanner : Scanner) (patterns : List Pattern) (labels : List Char → Prop) (text result : String) : Prop :=
  ∃ pieces, Rewrites labels text result pieces ∧
    ∀ pattern∈patterns, ∀ span∈scanner.finditer pattern text, Covered pieces span

namespace RedactionConfig
variable {scanner : Scanner} {config : RedactionConfig}

/-- The pieces of a text after some patterns. -/
def redactPieces (scanner : Scanner) (replacement : String) :
    List Pattern → List (Piece Char) → List (Piece Char)
  | [], ps => ps
  | pattern :: patterns, ps => redactPieces scanner replacement patterns
      (recut replacement.toList 0 (scanner.finditer pattern (String.ofList (showns ps))) ps)

/-- At its turn each pattern still finds what it matches in the text, as far as that is not replaced already, and
does not cut what is shown for something else. -/
def Steady (scanner : Scanner) (replacement text : String) : List Pattern → List (Piece Char) → Prop
  | [], _ => True
  | pattern :: patterns, ps =>
    let spans := scanner.finditer pattern (String.ofList (showns ps))
    Aligned 0 spans ps ∧
      (∀ span∈scanner.finditer pattern text, ∀ i j, span.1 ≤ i → i<span.2 → place ps i = some j →
        ∃ span'∈spans, span'.1≤j ∧ j<span'.2) ∧
      Steady scanner replacement text patterns (recut replacement.toList 0 spans ps)

section
variable {text shown : String} {patterns : List Pattern} {ps : List (Piece Char)}

theorem redactPieces_originals : originals (redactPieces scanner shown patterns ps) = originals ps := by
  induction patterns generalizing ps with
  | nil => rfl
  | cons pattern patterns ih => rw [redactPieces, ih, recut_originals]

theorem redactPieces_keeps {i : Nat} (h : place ps i = none) :
    place (redactPieces scanner shown patterns ps) i = none := by
  induction patterns generalizing ps with
  | nil => exact h
  | cons pattern patterns ih => exact ih (recut_keeps h)

theorem Steady.showns (hl : scanner.Lawful) (hb : '\\'∉shown.toList) (h : Steady scanner shown text patterns ps) :
    String.ofList (showns (redactPieces scanner shown patterns ps)) =
      patterns.foldl (fun text pattern => scanner.sub pattern shown text) (String.ofList (showns ps)) := by
  induction patterns generalizing ps with
  | nil => rfl
  | cons pattern patterns ih =>
    obtain ⟨ha, -, h⟩ := h
    have ho := hl.ordered pattern (String.ofList (Spans.showns ps))
    have hstep : String.ofList (Spans.showns (recut shown.toList 0
        (scanner.finditer pattern (String.ofList (Spans.showns ps))) ps)) =
        scanner.sub pattern shown (String.ofList (Spans.showns ps)) := by
      refine String.toList_inj.mp ?_
      rw [hl.sub _ _ _ hb, String.toList_ofList, recut_showns ho ha, String.toList_ofList]
    rw [redactPieces, ih h, List.foldl_cons, hstep]

theorem Steady.covers (hl : scanner.Lawful) (h : Steady scanner shown text patterns ps) :
    ∀ pattern∈patterns, ∀ span∈scanner.finditer pattern text,
      Covered (redactPieces scanner shown patterns ps) span := by
  induction patterns generalizing ps with
  | nil => simp
  | cons pattern patterns ih =>
    obtain ⟨ha, hfound, h⟩ := h
    refine List.forall_mem_cons.mpr ⟨fun span hm i hi hi' => ?_, ih h⟩
    rw [redactPieces]
    refine redactPieces_keeps ?_
    rcases Option.eq_none_or_eq_some (place ps i) with hp | ⟨j, hp⟩
    · exact recut_keeps hp
    · obtain ⟨span', hm', hj⟩ := hfound span hm i j hi hi' hp
      exact recut_covers (hl.ordered pattern _) ha hp hm' (by simpa using hj)

theorem redactPieces_mem {p : Piece Char} (h : p∈redactPieces scanner shown patterns ps) :
    p∈ps ∨ ∃ original, p=.cut original shown.toList := by
  induction patterns generalizing ps with
  | nil => exact Or.inl h
  | cons pattern patterns ih =>
    rcases ih h with h | h
    · exact recut_mem h
    · exact Or.inr h

end

/-- The text before any pattern. -/
def wholePieces (text : String) : List (Piece Char) := text.toList.map .kept

theorem wholePieces_same (text : String) :
    originals (wholePieces text) = text.toList ∧ showns (wholePieces text) = text.toList := by
  unfold wholePieces
  induction text.toList with
  | nil => exact ⟨rfl, rfl⟩
  | cons c cs ih => exact ⟨congrArg (c :: ·) ih.1, congrArg (c :: ·) ih.2⟩

theorem redactText_covers (hl : scanner.Lawful) {text : String} (he : config.enabled = true)
    (hb : '\\'∉config.replacement.toList)
    (h : Steady scanner config.replacement text config.patterns (wholePieces text)) :
    Covers scanner config.patterns (·=config.replacement.toList) text (config.redactText scanner.toRe text) := by
  obtain ⟨horiginals, hshowns⟩ := wholePieces_same text
  refine ⟨redactPieces scanner config.replacement config.patterns (wholePieces text), ⟨?_, ?_, ?_⟩, h.covers hl⟩
  · rw [redactPieces_originals, horiginals]
  · have hresult := h.showns hl hb
    rw [hshowns, String.ofList_toList] at hresult
    rw [redactText, if_pos he, ← hresult, String.toList_ofList]
  · intro original shown hm
    rcases redactPieces_mem hm with hm | ⟨_, hm⟩
    · obtain ⟨c, -, hc⟩ := List.mem_map.mp hm
      cases hc
    · cases hm
      rfl

/-! Requests. -/

theorem substitute_nothing (xs : List Char) : substitute [] 0 xs = xs := by
  induction xs with
  | nil => rfl
  | cons x xs ih => exact congrArg (x :: ·) ih

theorem redactRequest_text (text : String) : redactRequest config scanner (.str text) =
    .str (String.ofList (substitute
      (alternatives (config.mandatory.rememberMatches scanner [] text)) 0 text.toList)) := by
  rw [redactRequest, collect, replace, replaceText]
  split
  · rename_i hnone
    rw [hnone]
    exact congrArg Json.str (by rw [alternatives]; exact (by simp [substitute_nothing]))
  · rfl

/-- A recognized text stands in the text from before the span into it and ends in it. -/
def Straddled (config : RedactionConfig) (scanner : Scanner) (text : String) (span : Nat × Nat) : Prop :=
  ∃ raw, config.Recognized scanner text raw ∧ ∃ start, raw.toList <+: text.toList.drop start ∧ start<span.1 ∧
    span.1<start+raw.toList.length ∧ start+raw.toList.length<span.2

theorem redactRequest_covers (hl : scanner.Lawful) (text : String) : ∃ result pieces,
    redactRequest config scanner (.str text) = .str result ∧
      Rewrites (fun shown => ∃ n, shown=(config.label n).toList) text result pieces ∧
      ∀ pattern∈config.patterns, ∀ span∈scanner.finditer pattern text,
        ¬ config.Straddled scanner text span → Covered pieces span := by
  have hlabelled : config.mandatory.Labelled (config.mandatory.rememberMatches scanner [] text) :=
    RedactionConfig.Labelled.rememberMatches (fun _ he => absurd he List.not_mem_nil) text
  have horigin {raw : String}
      (hm : raw∈(config.mandatory.rememberMatches scanner [] text).map Prod.fst) :
      config.Recognized scanner text raw := by
    rcases rememberMatches_origin hm with h | h
    · exact h
    · cases h
  set known := config.mandatory.rememberMatches scanner [] text with hknown
  have hne : ∀ e∈alternatives known, e.1≠[] := by
    intro e he
    obtain ⟨entry, hm, rfl⟩ := alternatives_mem.mp he
    exact fun hnil => (hlabelled entry hm).1 (String.toList_eq_nil_iff.mp hnil)
  refine ⟨_, cuts (alternatives known) 0 text.toList, redactRequest_text text, ⟨?_, ?_, ?_⟩, ?_⟩
  · rw [cuts_originals hne, List.drop_zero]
  · rw [cuts_showns, String.toList_ofList]
  · intro original shown hm
    obtain ⟨entry, hm, he⟩ := alternatives_mem.mp (cuts_mem hm)
    obtain ⟨-, n, hn⟩ := hlabelled entry hm
    cases he
    exact ⟨n, by rw [hn]; rfl⟩
  · intro pattern hp span hm hstraddled i hi hi'
    have hbound := (hl.ordered pattern text).bound span hm
    have hgroup : (group text span).toList=(text.toList.drop span.1).take (span.2-span.1) := String.toList_ofList
    have hlength : (group text span).toList.length=span.2-span.1 := by
      rw [hgroup, List.length_take, List.length_drop]
      omega
    have hremembered : group text span∈known.map Prod.fst := by
      refine rememberMatches_mem hp hm fun hempty => ?_
      rw [hempty] at hlength
      simp at hlength
      omega
    have hraw : (group text span).toList∈(alternatives known).map Prod.fst := by
      obtain ⟨entry, hmem, hentry⟩ := List.mem_map.mp hremembered
      exact List.mem_map.mpr ⟨_, alternatives_mem.mpr ⟨entry, hmem, rfl⟩, by rw [hentry]⟩
    have hcovers := cuts_covers hne (alternatives_sorted known) hraw (Nat.zero_le span.1)
      (hgroup ▸ List.take_prefix _ _) ?_ (i := i) ⟨hi, by omega⟩
    · exact hcovers
    · intro e he start hstart hbefore hwithin
      by_contra hends
      obtain ⟨entry, hmem, rfl⟩ := alternatives_mem.mp he
      dsimp only at hwithin hends
      exact hstraddled ⟨entry.1, horigin (List.mem_map_of_mem hmem), start, hstart, hbefore, hwithin, by omega⟩

def cookieText : String := "secret=cookie: abc def"

def cookieScanner : Scanner :=
  .ofTable [((0, cookieText), [(0, 14)]), ((6, cookieText), [(7, 22)])]

theorem cookieScanner_lawful : cookieScanner.Lawful :=
  Scanner.ofTable_lawful (by simp [Spans.Ordered, cookieText])

theorem label_solid (n : Nat) : ' '∉(({} : RedactionConfig).label n).toList := by
  have hdigits : ' '∉Digits.digitChars n := fun h => absurd (Digits.digitChars_digit h) (by decide)
  simp only [label, String.toList_append, String.toList_ofList, List.mem_append, not_or]
  exact ⟨⟨by decide, by decide⟩, hdigits⟩

/-- Whatever covers both matches leaves nothing of the text, and labels have no blank. -/
theorem cookie_uncovered {labels : List Char → Prop} (hsolid : ∀ shown, labels shown → ' '∉shown) {result : String}
    (hblank : ' '∈result.toList) : ¬ Covers cookieScanner defaultSecretPatterns labels cookieText result := by
  rintro ⟨pieces, ⟨horiginals, hshowns, hlabelled⟩, hcovered⟩
  have hall : ∀ i < (originals pieces).length, place pieces i = none := by
    intro i hi
    have hlength : (originals pieces).length=22 := by
      rw [horiginals]
      decide
    have covered {span : Nat × Nat} (h : ∃ pattern∈defaultSecretPatterns,
        span∈cookieScanner.finditer pattern cookieText) : Covered pieces span := by
      obtain ⟨pattern, hp, hm⟩ := h
      exact hcovered pattern hp span hm
    rcases Nat.lt_or_ge i 14 with hi' | hi'
    · exact @covered (0, 14) (by decide +kernel) i (Nat.zero_le i) hi'
    · exact @covered (7, 22) (by decide +kernel) i (by dsimp only; omega) (by dsimp only; omega)
  rw [← hshowns] at hblank
  obtain ⟨piece, hm, hc⟩ := List.mem_flatMap.mp hblank
  obtain ⟨original, shown, rfl⟩ := cut_of_place hall piece hm
  exact hsolid shown (hlabelled original shown hm) hc

def passwordText : String := "my password=hunter2"

def passwordScanner : Scanner :=
  .ofTable [((0, passwordText), [(3, 19)]), ((3, passwordText), [(3, 19)])]

theorem passwordScanner_lawful : passwordScanner.Lawful :=
  Scanner.ofTable_lawful (by simp [Spans.Ordered, passwordText])

def passwordPieces : List (Piece Char) :=
  [.kept 'm', .kept 'y', .kept ' ', .cut "password=hunter2".toList TraceGuard.replacement.toList]

theorem password_found {pattern : Pattern} {span : Nat × Nat}
    (h : span∈passwordScanner.finditer pattern passwordText) : span=(3, 19) := by
  change span∈Scanner.found _ pattern passwordText at h
  rcases Scanner.found_mem pattern passwordText with he | hm
  · rw [he] at h
    cases h
  · simp only [List.mem_cons, Prod.mk.injEq, List.not_mem_nil, or_false] at hm
    rcases hm with ⟨-, he⟩ | ⟨-, he⟩ <;> exact List.mem_singleton.mp (he ▸ h)

/-- Behind the first pattern nothing is found, and nothing is left to be found. -/
theorem password_rest {patterns : List Pattern} :
    Steady passwordScanner TraceGuard.replacement passwordText patterns passwordPieces := by
  induction patterns with
  | nil => trivial
  | cons pattern patterns ih =>
    have hshown : String.ofList (showns passwordPieces) = "my [REDACTED_SECRET]" := rfl
    have hnone : passwordScanner.finditer pattern "my [REDACTED_SECRET]" = [] := by
      rcases Scanner.found_mem pattern "my [REDACTED_SECRET]" with h | h
      · exact h
      · simp [passwordText] at h
    have hcut : ∀ i < 19, 3 ≤ i → place passwordPieces i = none := by decide
    rw [Steady, hshown, hnone]
    refine ⟨trivial, fun span hm i j hi hi' hp => ?_, ih⟩
    cases password_found hm
    rw [hcut i hi' hi] at hp
    cases hp

theorem password_steady :
    Steady passwordScanner TraceGuard.replacement passwordText defaultSecretPatterns (wholePieces passwordText) := by
  have hshown : String.ofList (showns (wholePieces passwordText)) = passwordText := rfl
  have hplace : ∀ i < 19, ∀ j, place (wholePieces passwordText) i = some j → j=i := by
    have h : ∀ i < 19, place (wholePieces passwordText) i = some i := by decide
    exact fun i hi j hj => (Option.some.inj ((h i hi).symm.trans hj)).symm
  rw [defaultSecretPatterns, List.map_cons, Steady, hshown]
  have hfirst : ∀ pattern∈defaultSecretPatterns.head?,
      passwordScanner.finditer pattern passwordText=[(3, 19)] := by
    intro pattern hp
    cases hp
    decide +kernel
  rw [hfirst _ rfl]
  refine ⟨⟨rfl, rfl, trivial⟩, fun span hm i j hi hi' hp => ?_, password_rest⟩
  cases List.mem_singleton.mp hm
  exact ⟨(3, 19), List.mem_singleton.mpr rfl, by rw [hplace i hi' j hp]; exact ⟨hi, hi'⟩⟩

end RedactionConfig
end TraceGuard
