import TraceGuard.FieldComplete
import TraceGuard.Limits

/-! Explicit data release. The gate decides about the text that the content decodes to and about the value that
the text parses as; the content itself is what leaves. -/
namespace TraceGuard

/-- `json.dumps(value, ensure_ascii=False)`. -/
def unicodeStyle : Json.Style := { gap := [' '], blank := Json.blank_space, ascii := false }

inductive ReleaseError where
  /-- `PermissionError`. -/
  | permission (message : String)
  /-- `UnicodeDecodeError`. -/
  | decode
  deriving DecidableEq, Repr

theorem mebibyte_bounded : 0 < 1048576 ∧ 1048576≤16777216 := by decide

structure ReleaseGate where
  allowedSinks : List String
  allowedLabels : List String := ["public"]
  prohibitedLiterals : List String := []
  maxBytes : Nat := 1048576
  bounded : 0 < maxBytes ∧ maxBytes≤16777216 := by first | exact mebibyte_bounded | decide

namespace ReleaseGate

/-- `json.loads(text)`; what does not parse stands for itself. -/
def structured (text : String) : Json := (Json.loads text).getD (.str text)

/-- `json.dumps(structured, ensure_ascii=False)`. -/
def normalized (value : Json) : String := String.ofList (Json.chars unicodeStyle value)

/-- A text that an entry which is not empty occurs in. -/
def prohibits (gate : ReleaseGate) (text : String) : Bool :=
  gate.prohibitedLiterals.any fun value => value≠"" && occursIn value text

def authorize (gate : ReleaseGate) (re : Re) (sink : String) (content : ByteArray)
    (label : String := "unclassified") : Except ReleaseError ByteArray := do
  if sink∉gate.allowedSinks ∨ label∉gate.allowedLabels then
    throw (.permission "data classification is not approved for this release sink")
  if gate.maxBytes<content.size then throw (.permission "release exceeds byte budget")
  match String.fromUTF8? content with
  | none => throw .decode
  | some text =>
    if gate.prohibits text then throw (.permission "release contains explicitly protected content")
    match validateJson (structured text) gate.maxBytes 16384 32 with
    | .error _ => throw (.permission "release structure exceeds budget")
    | .ok () =>
      if gate.prohibits (normalized (structured text)) then
        throw (.permission "release contains explicitly protected content")
      if !(re.redactValue (structured text)).pyEq (structured text) then
        throw (.permission "release contains recognized credentials")
      return content

/-- What released content has passed. -/
structure Released (gate : ReleaseGate) (re : Re) (sink : String) (content : ByteArray) (label text : String) :
    Prop where
  approved : sink∈gate.allowedSinks ∧ label∈gate.allowedLabels
  size : content.size≤gate.maxBytes
  decoded : String.fromUTF8? content = some text
  open_text : gate.prohibits text = false
  plain : (structured text).plain = true
  open_value : gate.prohibits (normalized (structured text)) = false
  unredacted : (re.redactValue (structured text)).pyEq (structured text) = true

theorem authorize_ok {gate : ReleaseGate} {re : Re} {sink label : String} {content released : ByteArray}
    (h : gate.authorize re sink content label = .ok released) :
    released=content ∧ ∃ text, gate.Released re sink content label text := by
  unfold authorize at h
  obtain ⟨happroved, h⟩ := Raising.guard_ok h
  obtain ⟨hsize, h⟩ := Raising.guard_ok h
  split at h
  · cases h
  rename_i text hdecoded
  obtain ⟨htext, h⟩ := Raising.guard_ok h
  split at h
  · cases h
  rename_i hvalid
  obtain ⟨hvalue, h⟩ := Raising.guard_ok h
  obtain ⟨hredacted, h⟩ := Raising.guard_ok h
  refine ⟨(Except.ok.inj h).symm, text, ?_⟩
  exact
    { approved := by simpa [not_or] using happroved
      size := Nat.le_of_not_lt hsize
      decoded := hdecoded
      open_text := by simpa using htext
      plain := validateJson_plain hvalid
      open_value := by simpa using hvalue
      unredacted := by simpa using hredacted }

theorem authorize_intro {gate : ReleaseGate} {re : Re} {sink label text : String} {content : ByteArray}
    (approved : sink∈gate.allowedSinks ∧ label∈gate.allowedLabels) (size : content.size≤gate.maxBytes)
    (decoded : String.fromUTF8? content = some text) (open_text : gate.prohibits text = false)
    (valid : validateJson (structured text) gate.maxBytes 16384 32 = .ok ())
    (open_value : gate.prohibits (normalized (structured text)) = false)
    (unredacted : (re.redactValue (structured text)).pyEq (structured text) = true) :
    gate.authorize re sink content label = .ok content := by
  unfold authorize
  simp only [approved, not_true_eq_false, or_self, Nat.not_lt.mpr size, decoded, open_text, valid, open_value,
    unredacted]
  rfl

theorem fromUTF8_text (text : String) : String.fromUTF8? text.toByteArray = some text :=
  dif_pos text.isValidUTF8

/-- A text that is no JSON value. -/
def answerText : String := "Approved public answer"

end ReleaseGate
end TraceGuard
