import TraceGuard.ReleaseGate

/-! Protected literals in released content. What JSON writes as it is stands in the text of a document wherever it
stands in one of its strings; what JSON escapes does not. -/
namespace Json

theorem escaped_raw {ascii : Bool} {value : List Char} (h : ∀ c∈value, raw ascii c = true) :
    value.flatMap (escapeChar ascii) = value := by
  induction value with
  | nil => rfl
  | cons c value ih =>
    have hc : escapeChar ascii c = [c] := if_pos (h c (by simp))
    rw [List.flatMap_cons, hc, ih fun d hd => h d (List.mem_cons_of_mem _ hd), List.singleton_append]

theorem stringChars_within {ascii : Bool} {value s : List Char} (hv : ∀ c∈value, raw ascii c = true)
    (h : value <:+: s) : value <:+: stringChars ascii s := by
  obtain ⟨before, after, rfl⟩ := h
  refine ⟨'"' :: before.flatMap (escapeChar ascii), after.flatMap (escapeChar ascii)++['"'], ?_⟩
  simp [stringChars, escaped_raw hv]

end Json

namespace TraceGuard
open Json

section
variable {style : Style} {value : List Char}

theorem infix_behind {xs ys : List Char} (before after : List Char) (h : xs <:+: ys) :
    xs <:+: before++(ys++after) :=
  h.trans (List.infix_append' before ys after)

mutual
/-- What JSON writes as it is and what occurs in a string of a document occurs in its text. -/
theorem chars_within (hv : ∀ c∈value, raw style.ascii c = true) : (document : Json) →
    ∀ s∈argumentStrings document, value <:+: s.toList → value <:+: chars style document
  | .str text, s, hs, h => by
    rw [argumentStrings, List.mem_singleton] at hs
    exact stringChars_within hv (hs ▸ h)
  | .arr items, s, hs, h => (itemsChars_within hv true items s hs h).trans (List.suffix_cons _ _).isInfix
  | .obj members, s, hs, h => (membersChars_within hv true members s hs h).trans (List.suffix_cons _ _).isInfix
  | .null, s, hs, _ | .bool _, s, hs, _ | .int _, s, hs, _ | .float _, s, hs, _ => by cases hs
theorem itemsChars_within (hv : ∀ c∈value, raw style.ascii c = true) (first : Bool) : (items : List Json) →
    ∀ s∈itemStrings items, value <:+: s.toList → value <:+: itemsChars style first items
  | [], s, hs, _ => by cases hs
  | item :: items, s, hs, h => by
    rw [itemsChars]
    rcases List.mem_append.mp hs with hs | hs
    · exact infix_behind _ _ (chars_within hv item s hs h)
    · have hrest := itemsChars_within hv false items s hs h
      rw [← List.append_assoc]
      exact hrest.trans (List.suffix_append _ _).isInfix
theorem membersChars_within (hv : ∀ c∈value, raw style.ascii c = true) (first : Bool) :
    (members : List (String × Json)) → ∀ s∈memberStrings members, value <:+: s.toList →
      value <:+: membersChars style first members
  | [], s, hs, _ => by cases hs
  | (key, item) :: members, s, hs, h => by
    rw [membersChars]
    rcases List.mem_cons.mp hs with rfl | hs
    · exact infix_behind _ _ (stringChars_within hv h)
    rw [← List.append_assoc, ← List.append_assoc]
    rcases List.mem_append.mp hs with hs | hs
    · exact infix_behind _ _ (chars_within hv item s hs h)
    · have hrest := membersChars_within hv false members s hs h
      rw [← List.append_assoc]
      exact hrest.trans (List.suffix_append _ _).isInfix
end

end

/-- A character that JSON does not write as it is, whatever the style. -/
def escapable (c : Char) : Bool := c = '"' || c = '\\' || c.toNat < 32

theorem escapable_raw {c : Char} (h : escapable c = false) : raw false c = true := by
  simp only [escapable, Bool.or_eq_false_iff, decide_eq_false_iff_not] at h
  obtain ⟨⟨hquote, hslash⟩, hcontrol⟩ := h
  have hprint : 32 ≤ c.toNat ∧ c.toNat≤126 ∨ 127 ≤ c.toNat := by omega
  simpa [raw, printable, hquote, hslash] using hprint

namespace ReleaseGate

/-- The literal stands in a string or a member name of the document that the text parses as. -/
def Discloses (text value : String) : Prop :=
  ∃ document, Json.loads text = some document ∧ ∃ s, document.Nested s ∧ value.toList <:+: s.toList

/-- No protected literal stands in the text or in its document. -/
def Withheld (gate : ReleaseGate) (text : String) : Prop :=
  ∀ value∈gate.prohibitedLiterals, value≠"" → ¬ value.toList <:+: text.toList ∧ ¬ Discloses text value

theorem prohibits_false {gate : ReleaseGate} {text value : String} (h : gate.prohibits text = false)
    (hm : value∈gate.prohibitedLiterals) (hne : value≠"") : ¬ value.toList <:+: text.toList := by
  intro hin
  have := List.any_eq_false.mp h value hm
  simp [hne, occursIn_iff.mpr hin] at this

/-- A literal that JSON writes as it is does not leave in a document. -/
theorem Released.covers {gate : ReleaseGate} {re : Re} {sink label text value : String} {content : ByteArray}
    (h : gate.Released re sink content label text) (hm : value∈gate.prohibitedLiterals) (hne : value≠"")
    (hraw : ∀ c∈value.toList, escapable c = false) : ¬ Discloses text value := by
  rintro ⟨document, hd, s, hs, hin⟩
  refine prohibits_false h.open_value hm hne ?_
  rw [structured, hd, Option.getD_some, normalized, String.toList_ofList]
  exact chars_within (fun c hc => escapable_raw (hraw c hc)) document s (nested_argumentStrings hs) hin

def quotedGate : ReleaseGate where
  allowedSinks := ["final_answer"]
  prohibitedLiterals := ["quoted\"secret"]

/-- An engine that finds no credential. -/
def silent : Re := ⟨fun _ _ => false, fun _ _ text => text⟩

def quotedText : String := "\x7b\"a\": \"quoted\\\"secret\"\x7d"

theorem quoted_structured : structured quotedText = .obj [("a", .str "quoted\"secret")] := by
  have h : Json.loads quotedText = some (.obj [("a", .str "quoted\"secret")]) := rfl
  rw [structured, h, Option.getD_some]

theorem quoted_released : quotedGate.authorize silent "final_answer" quotedText.toByteArray "public" =
    .ok quotedText.toByteArray := by
  refine authorize_intro (by decide) (by decide +kernel) (fromUTF8_text _) (by decide +kernel) ?_ ?_ ?_
  all_goals rw [quoted_structured]
  · have hlength : ¬ quotedGate.maxBytes<
        (Json.chars Json.compact (.obj [("a", .str "quoted\"secret")])).length := by decide +kernel
    simp [validateJson, Limits.walk, hlength, Json.plain, Json.plainMembers, bind, Except.bind]
    rfl
  · decide +kernel
  · decide +kernel

theorem answer_released : quotedGate.authorize silent "final_answer" answerText.toByteArray "public" =
    .ok answerText.toByteArray := by
  have hstructured : structured answerText = .str answerText := rfl
  refine authorize_intro (by decide) (by decide +kernel) (fromUTF8_text _) (by decide +kernel) ?_ ?_ ?_
  all_goals rw [hstructured]
  · have hlength : ¬ quotedGate.maxBytes<(Json.chars Json.compact (.str answerText)).length := by
      decide +kernel
    simp [validateJson, Limits.walk, hlength, Json.plain, bind, Except.bind]
    rfl
  · decide +kernel
  · decide +kernel

end ReleaseGate
end TraceGuard
