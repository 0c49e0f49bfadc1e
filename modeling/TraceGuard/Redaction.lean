import TraceGuard.JsonCodec

/-! Redaction of secrets in texts and JSON values. Python's `re` is a parameter: the patterns
are the source's texts, the engine that reads them is not modelled. -/
namespace TraceGuard

structure Pattern where
  text : String
  ignoreCase : Bool := false
  dotAll : Bool := false

/-- `re.search(pattern, text) is not None` and `pattern.sub(replacement, text)`. -/
structure Re where
  search : Pattern → String → Bool
  sub : Pattern → String → String → String

def defaultSecretPatterns : List Pattern :=
  [ "(?i)\\b(?:password|secret|token|api[_-]?key)\\s*[:=]\\s*['\"]?[^'\"\\s,&;]+",
    "(?i)\\bapi[_-]?key\\s*[:=]\\s*['\"]?([A-Za-z0-9_\\-]\x7b16,\x7d)",
    "(?i)\\bbearer\\s+[A-Za-z0-9_\\-.=]\x7b12,\x7d",
    "(?i)\\bpassword\\s*[:=]\\s*['\"]?[^'\"\\s]+",
    "(?i)\\b(access|session|refresh)[_-]?token\\s*[:=]\\s*['\"]?[A-Za-z0-9_\\-.=]\x7b12,\x7d",
    "-----BEGIN [A-Z ]*PRIVATE KEY-----.*?-----END [A-Z ]*PRIVATE KEY-----",
    "(?i)\\bcookie\\s*[:=]\\s*[^;\\n]+" ].map fun text => { text := text, dotAll := true }

def sensitiveKeyPattern : Pattern where
  text := "(?i)(api[_-]?key|password|passphrase|secret|credential|"++
    "(access|session|refresh|auth)[_-]?token|authorization|cookie|private[_-]?key)"

def replacement : String := "[REDACTED_SECRET]"

namespace Re
variable (re : Re)

def redactText (text : String) : String :=
  defaultSecretPatterns.foldl (fun text pattern => re.sub pattern replacement text) text

mutual
def redactValue : Json → Json
  | .str text => .str (re.redactText text)
  | .obj members => .obj (redactMembers members)
  | .arr items => .arr (redactItems items)
  | value => value
def redactItems : List Json → List Json
  | [] => []
  | item :: items => redactValue item :: redactItems items
def redactMembers : List (String × Json) → List (String × Json)
  | [] => []
  | (key, item) :: members =>
    (key, if re.search sensitiveKeyPattern key then .str replacement else redactValue item) ::
      redactMembers members
end

/-- A receipt that is JSON is redacted as a value, any other as a text. -/
def redactReceipt (text : String) : String :=
  match Json.loads text with
  | some value => Json.text Json.spaced (re.redactValue value)
  | none => re.redactText text

end Re

/-! A redacted value can be written when the value can. -/

mutual
theorem Re.redactValue_plain (re : Re) : (value : Json) → value.plain = true →
    (re.redactValue value).plain = true
  | .null, _ | .bool _, _ | .str _, _ => rfl
  | .int _, h | .float _, h => h
  | .arr items, h => redactItems_plain re items h
  | .obj members, h => redactMembers_plain re members h
theorem Re.redactItems_plain (re : Re) : (items : List Json) → Json.plainItems items = true →
    Json.plainItems (re.redactItems items) = true
  | [], _ => rfl
  | item :: items, h => by
    simp only [Json.plainItems, Bool.and_eq_true] at h
    simp [redactItems, Json.plainItems, redactValue_plain re item h.1,
      redactItems_plain re items h.2]
theorem Re.redactMembers_plain (re : Re) : (members : List (String × Json)) →
    Json.plainMembers members = true → Json.plainMembers (re.redactMembers members) = true
  | [], _ => rfl
  | (key, item) :: members, h => by
    simp only [Json.plainMembers, Bool.and_eq_true] at h
    have hitem : (if re.search sensitiveKeyPattern key then Json.str replacement
        else re.redactValue item).plain = true := by
      split
      · rfl
      · exact redactValue_plain re item h.1
    simp [redactMembers, Json.plainMembers, hitem, redactMembers_plain re members h.2]
end

end TraceGuard
