import TraceGuard.Json
import TraceGuard.Raising

/-! The text of a JSON value as Python writes and reads it: `json.dumps` with escapes for
all that is not printable ASCII, and `json.loads`. What is written reads back. -/
open Digits

namespace Json

/-! Strings. -/

def hexDigit (n : Nat) : Char := if n<10 then Char.ofNat (48+n) else Char.ofNat (87+n)

def hexValue (c : Char) : Option Nat :=
  let n := c.toNat
  if 48≤n ∧ n≤57 then some (n-48)
  else if 97≤n ∧ n≤102 then some (n-87)
  else if 65≤n ∧ n≤70 then some (n-55)
  else none

/-- `\uXXXX` of one UTF-16 unit. -/
def unitChars (n : Nat) : List Char :=
  ['\\', 'u', hexDigit (n/4096%16), hexDigit (n/256%16), hexDigit (n/16%16), hexDigit (n%16)]

def printable (c : Char) : Bool := 32 ≤ c.toNat && c.toNat≤126 && c ≠ '"' && c ≠ '\\'

/-- With `ascii`, only printable ASCII is written as it is. -/
def raw (ascii : Bool) (c : Char) : Bool := printable c || (!ascii && 127 ≤ c.toNat)

def escapeChar (ascii : Bool) (c : Char) : List Char :=
  if raw ascii c then [c]
  else if c = '"' then ['\\', '"']
  else if c = '\\' then ['\\', '\\']
  else if c = '\n' then ['\\', 'n']
  else if c = '\r' then ['\\', 'r']
  else if c = '\t' then ['\\', 't']
  else if c.toNat=8 then ['\\', 'b']
  else if c.toNat=12 then ['\\', 'f']
  else if c.toNat < 0x10000 then unitChars c.toNat
  else unitChars (0xd800+(c.toNat-0x10000)/1024)++unitChars (0xdc00+(c.toNat-0x10000)%1024)

def stringChars (ascii : Bool) (s : List Char) : List Char :=
  '"' :: (s.flatMap (escapeChar ascii) ++ ['"'])

def readUnit : List Char → Option (Nat × List Char)
  | a :: b :: c :: d :: rest => do
    let a ← hexValue a
    let b ← hexValue b
    let c ← hexValue c
    let d ← hexValue d
    some (a*4096+b*256+c*16+d, rest)
  | _ => none

/-- After `\u`: a pair of surrogates is one character, and a lone one is no text. -/
def readUnicode (cs : List Char) : Option (Char × List Char) := do
  let (n, rest) ← readUnit cs
  if 0xd800≤n ∧ n<0xdc00 then
    match rest with
    | '\\' :: 'u' :: rest => do
      let (m, rest) ← readUnit rest
      if 0xdc00 ≤ m ∧ m<0xe000 then
        some (Char.ofNat (0x10000+(n-0xd800)*1024+(m-0xdc00)), rest)
      else none
    | _ => none
  else if 0xdc00≤n ∧ n<0xe000 then none
  else some (Char.ofNat n, rest)

def readEscape : List Char → Option (Char × List Char)
  | '"' :: rest => some ('"', rest)
  | '\\' :: rest => some ('\\', rest)
  | '/' :: rest => some ('/', rest)
  | 'b' :: rest => some (Char.ofNat 8, rest)
  | 'f' :: rest => some (Char.ofNat 12, rest)
  | 'n' :: rest => some ('\n', rest)
  | 'r' :: rest => some ('\r', rest)
  | 't' :: rest => some ('\t', rest)
  | 'u' :: rest => readUnicode rest
  | _ => none

/-- The rest of a string after its opening quote. -/
def readString : Nat → List Char → Option (List Char × List Char)
  | 0, _ | _, [] => none
  | n+1, c :: cs =>
    if c = '"' then some ([], cs)
    else if c = '\\' then do
      let (c, rest) ← readEscape cs
      let (s, rest) ← readString n rest
      some (c :: s, rest)
    else if c.toNat < 32 then none
    else do
      let (s, rest) ← readString n cs
      some (c :: s, rest)

theorem hexValue_hexDigit : ∀ n < 16, hexValue (hexDigit n) = some n := by decide

theorem readUnit_unitChars {n : Nat} (h : n < 65536) (rest : List Char) :
    readUnit ((unitChars n).drop 2 ++ rest) = some (n, rest) := by
  have hex (m : Nat) : hexValue (hexDigit (m%16)) = some (m%16) :=
    hexValue_hexDigit _ (Nat.mod_lt _ (by omega))
  have hsum : n/4096%16*4096+n/256%16*256+n/16%16*16+n%16 = n := by omega
  simp [unitChars, readUnit, hex, hsum]

theorem valid_char (c : Char) : c.toNat < 0xd800 ∨ (0xe000 ≤ c.toNat ∧ c.toNat < 0x110000) := by
  have h := c.valid
  simp only [UInt32.isValidChar, Nat.isValidChar] at h
  have hc : c.toNat = c.val.toNat := rfl
  omega

theorem readUnicode_unit {c : Char} (h : c.toNat < 0x10000) (rest : List Char) :
    readUnicode ((unitChars c.toNat).drop 2 ++ rest) = some (c, rest) := by
  have hvalid := valid_char c
  have h1 : ¬ (0xd800 ≤ c.toNat ∧ c.toNat < 0xdc00) := by omega
  have h2 : ¬ (0xdc00 ≤ c.toNat ∧ c.toNat < 0xe000) := by omega
  simp [readUnicode, readUnit_unitChars h, h1, h2]

theorem readUnicode_surrogates {high low : Nat} (h1 : 0xd800≤high ∧ high < 0xdc00)
    (h2 : 0xdc00≤low ∧ low < 0xe000) (rest : List Char) :
    readUnicode ((unitChars high).drop 2 ++ (unitChars low ++ rest)) =
      some (Char.ofNat (0x10000+(high-0xd800)*1024+(low-0xdc00)), rest) := by
  have hunit : unitChars low ++ rest = '\\' :: 'u' :: ((unitChars low).drop 2 ++ rest) := rfl
  have hread := readUnit_unitChars (n := low) (by omega) rest
  rw [readUnicode, readUnit_unitChars (by omega), hunit]
  simp only [Option.bind_eq_bind, Option.bind_some, h1, h2, and_self, if_true, hread]

theorem readUnicode_pair {c : Char} (h : ¬ c.toNat < 0x10000) (rest : List Char) :
    readUnicode ((unitChars (0xd800+(c.toNat-0x10000)/1024)).drop 2 ++
      (unitChars (0xdc00+(c.toNat-0x10000)%1024) ++ rest)) = some (c, rest) := by
  have hvalid := valid_char c
  have hn : 0x10000+(0xd800+(c.toNat-0x10000)/1024-0xd800)*1024+
      (0xdc00+(c.toNat-0x10000)%1024-0xdc00) = c.toNat := by omega
  rw [readUnicode_surrogates (by omega) (by omega), hn, Char.ofNat_toNat]

/-- The backslash and what follows it are read as the character. -/
theorem readEscape_escapeChar {ascii : Bool} {c : Char} (h : raw ascii c = false)
    (rest : List Char) : escapeChar ascii c = '\\' :: (escapeChar ascii c).drop 1 ∧
      readEscape ((escapeChar ascii c).drop 1 ++ rest) = some (c, rest) := by
  have hof (k : Nat) (hk : c.toNat=k) : Char.ofNat k = c := by rw [← hk, Char.ofNat_toNat]
  unfold escapeChar
  rw [if_neg (by simp [h])]
  split_ifs with h1 h2 h3 h4 h5 h6 h7 h8
  · exact ⟨rfl, by rw [h1]; rfl⟩
  · exact ⟨rfl, by rw [h2]; rfl⟩
  · exact ⟨rfl, by rw [h3]; rfl⟩
  · exact ⟨rfl, by rw [h4]; rfl⟩
  · exact ⟨rfl, by rw [h5]; rfl⟩
  · exact ⟨rfl, by rw [← hof 8 h6]; rfl⟩
  · exact ⟨rfl, by rw [← hof 12 h7]; rfl⟩
  · exact ⟨rfl, readUnicode_unit h8 rest⟩
  · refine ⟨rfl, ?_⟩
    have := readUnicode_pair h8 rest
    rwa [← List.append_assoc] at this

theorem raw_quote {ascii : Bool} {c : Char} (h : raw ascii c = true) :
    c ≠ '"' ∧ c ≠ '\\' ∧ ¬ c.toNat < 32 := by
  simp only [raw, printable, Bool.or_eq_true, Bool.and_eq_true, decide_eq_true_eq] at h
  rcases h with ⟨⟨⟨h1, h2⟩, h3⟩, h4⟩ | ⟨-, h⟩
  · exact ⟨h3, h4, by omega⟩
  · refine ⟨?_, ?_, by omega⟩ <;> rintro rfl <;> exact absurd h (by decide)

/-- One escaped character is read back, and reading goes on behind it. -/
theorem readString_escapeChar (ascii : Bool) (c : Char) (n : Nat) (rest : List Char) :
    readString (n+1) (escapeChar ascii c ++ rest) =
      (readString n rest).map fun p => (c :: p.1, p.2) := by
  have hmap : ((readString n rest).bind fun p => some (c :: p.1, p.2)) =
      (readString n rest).map fun p => (c :: p.1, p.2) := by
    cases readString n rest <;> rfl
  cases hp : raw ascii c with
  | true =>
    have he : escapeChar ascii c = [c] := if_pos hp
    obtain ⟨h1, h2, h3⟩ := raw_quote hp
    rw [he, List.singleton_append]
    simp only [readString, h1, h2, h3, if_false]
    exact hmap
  | false =>
    obtain ⟨he, hread⟩ := readEscape_escapeChar hp rest
    rw [he, List.cons_append]
    simp only [readString, Char.reduceEq, if_false, if_true, hread]
    exact hmap

theorem readString_chars (ascii : Bool) (s : List Char) (n : Nat) (hn : s.length < n)
    (rest : List Char) : readString n (s.flatMap (escapeChar ascii) ++ '"' :: rest) = some (s, rest) := by
  induction s generalizing n with
  | nil =>
    obtain ⟨k, rfl⟩ : ∃ k, n=k+1 := ⟨n-1, by simp at hn; omega⟩
    simp [readString]
  | cons c s ih =>
    obtain ⟨k, rfl⟩ : ∃ k, n=k+1 := ⟨n-1, by omega⟩
    rw [List.flatMap_cons, List.append_assoc, readString_escapeChar,
      ih k (by simpa using hn)]
    rfl

theorem escapeChar_length (ascii : Bool) (c : Char) : 1≤(escapeChar ascii c).length := by
  unfold escapeChar
  split_ifs <;> simp [unitChars]

theorem escaped_length (ascii : Bool) (s : List Char) :
    s.length≤(s.flatMap (escapeChar ascii)).length := by
  induction s with
  | nil => exact le_rfl
  | cons c s ih =>
    have := escapeChar_length ascii c
    simp only [List.flatMap_cons, List.length_append, List.length_cons]
    omega

/-! Numbers. -/

def intChars (n : Int) : List Char := (if n<0 then ['-'] else []) ++ digitChars n.natAbs

def exponentChars (e : Int) : List Char :=
  let ds := digitChars e.natAbs
  'e' :: (if e<0 then '-' else '+') :: (List.replicate (2-ds.length) '0' ++ ds)

def tailChars (frac : List Char) (exp : Option Int) : List Char :=
  (if frac=[] then [] else '.' :: frac) ++
    match exp with
    | none => []
    | some e => exponentChars e

def partsChars (p : List Char × List Char × Option Int) : List Char :=
  p.1 ++ tailChars p.2.1 p.2.2

def floatChars : Double → List Char
  | .finite neg units _ => (if neg then ['-'] else []) ++ partsChars (Double.parts units)
  | .infinity neg => (if neg then ['-'] else []) ++ "Infinity".toList
  | .nan => "NaN".toList

def splitMinus : List Char → Bool × List Char
  | '-' :: cs => (true, cs)
  | cs => (false, cs)

def splitSign : List Char → Bool × List Char
  | '-' :: cs => (true, cs)
  | '+' :: cs => (false, cs)
  | cs => (false, cs)

/-- A point and at least one digit, or nothing. -/
def splitFraction (cs : List Char) : List Char × List Char :=
  match cs with
  | '.' :: tail =>
    let (ds, rest) := tail.span Char.isDigit
    if ds=[] then ([], cs) else (ds, rest)
  | _ => ([], cs)

/-- An exponent mark and an optionally signed number, or nothing. -/
def splitExponent (cs : List Char) : Option Int × List Char :=
  match cs with
  | c :: tail =>
    if c = 'e' ∨ c = 'E' then
      let (neg, tail) := splitSign tail
      let (ds, rest) := tail.span Char.isDigit
      if ds=[] then (none, cs)
      else (some (if neg then -(ofDigitChars ds:Int) else ofDigitChars ds), rest)
    else (none, cs)
  | [] => (none, cs)

def readNumber (cs : List Char) : Option (Json × List Char) :=
  let (neg, body) := splitMinus cs
  let (whole, rest) := body.span Char.isDigit
  -- a number does not start with a zero and another digit
  if whole=[] ∨ (whole.head? = some '0' ∧ 1<whole.length) then none
  else
    let (frac, rest) := splitFraction rest
    let (exp, rest) := splitExponent rest
    if frac=[] ∧ exp=none then
      let n := ofDigitChars whole
      some (.int (if neg then -(n:Int) else n), rest)
    else some (.float (Double.ofParts neg (whole, frac, exp)), rest)

/-- What may stand behind a value. -/
def Follows (rest : List Char) : Prop := ∀ c∈rest.head?, c = ',' ∨ c = ']' ∨ c = '}'

theorem follows_nil : Follows [] := by simp [Follows]

theorem Follows.stops {rest : List Char} (h : Follows rest) : Stops rest := by
  intro c hc
  rcases h c hc with rfl | rfl | rfl <;> rfl

theorem Follows.fraction {rest : List Char} (h : Follows rest) :
    splitFraction rest = ([], rest) := by
  unfold splitFraction
  split
  · rcases h '.' rfl with h | h | h <;> cases h
  · rfl

theorem Follows.exponent {rest : List Char} (h : Follows rest) :
    splitExponent rest = (none, rest) := by
  unfold splitExponent
  split
  · rename_i c tail
    have hc : ¬ (c = 'e' ∨ c = 'E') := by
      rcases h c rfl with rfl | rfl | rfl <;> decide
    rw [if_neg hc]
  · rfl

theorem exponentChars_stops (e : Int) (rest : List Char) : Stops (exponentChars e ++ rest) :=
  stops_cons rfl

theorem exponentChars_fraction (e : Int) (rest : List Char) :
    splitFraction (exponentChars e ++ rest) = ([], exponentChars e ++ rest) := rfl

theorem splitExponent_chars (e : Int) {rest : List Char} (h : Follows rest) :
    splitExponent (exponentChars e ++ rest) = (some e, rest) := by
  set ds := List.replicate (2-(digitChars e.natAbs).length) '0' ++ digitChars e.natAbs with hds
  have hne : ds≠[] := by simp [hds, digitChars_ne_nil]
  have hdig : ∀ c∈ds, c.isDigit = true := by
    intro c hc
    rcases List.mem_append.mp hc with hz | hd
    · rw [List.eq_of_mem_replicate hz]; rfl
    · exact digitChars_digit hd
  have hvalue : ofDigitChars ds = e.natAbs := by
    rw [hds, ofDigitChars_zeros, ofDigitChars_digitChars]
  have hspan := span_digits ds rest hdig h.stops
  have hsign : splitSign ((if e<0 then '-' else '+') :: (ds ++ rest)) = (decide (e<0), ds ++ rest) := by
    split_ifs with h0 <;> simp [splitSign, h0]
  have hchars : exponentChars e ++ rest = 'e' :: (if e<0 then '-' else '+') :: (ds ++ rest) := rfl
  rw [hchars]
  simp only [splitExponent, true_or, if_true, hsign, hspan, hne, if_false, hvalue,
    decide_eq_true_eq, Prod.mk.injEq, Option.some.injEq, and_true]
  split_ifs <;> omega

theorem splitMinus_digits {ds : List Char} (hd : ∀ c∈ds, c.isDigit = true) (hne : ds≠[])
    (rest : List Char) (neg : Bool) :
    splitMinus ((if neg then ['-'] else []) ++ (ds ++ rest)) = (neg, ds ++ rest) := by
  cases neg with
  | true => rfl
  | false =>
    obtain ⟨c, cs, rfl⟩ := List.exists_cons_of_ne_nil hne
    have hc : c ≠ '-' := by
      rintro rfl
      exact absurd (hd '-' (by simp)) (by decide)
    simp only [Bool.false_eq_true, if_false, List.nil_append, List.cons_append, splitMinus]
    split
    · rename_i heq
      exact absurd (List.cons.inj heq).1 hc
    · rfl

theorem readNumber_int (n : Int) {rest : List Char} (hr : Follows rest) :
    readNumber (intChars n ++ rest) = some (.int n, rest) := by
  have hdig : ∀ c∈digitChars n.natAbs, c.isDigit = true := fun c hc => digitChars_digit hc
  have hne := digitChars_ne_nil n.natAbs
  have hsign := splitMinus_digits hdig hne rest (decide (n<0))
  have hlead : ¬ ((digitChars n.natAbs).head? = some '0' ∧ 1<(digitChars n.natAbs).length) :=
    fun hz => absurd (digitChars_zero_length hz.1) (by omega)
  have hspan := span_digits _ rest hdig hr.stops
  have hchars : intChars n ++ rest =
      (if decide (n<0) then ['-'] else []) ++ (digitChars n.natAbs ++ rest) := by
    simp [intChars]
  have hvalue : (if decide (n<0) = true then -(n.natAbs:Int) else n.natAbs) = n := by
    simp only [decide_eq_true_eq]
    split_ifs <;> omega
  rw [hchars, readNumber, hsign]
  simp only [hspan, hne, hlead, false_or, if_false, hr.fraction, hr.exponent, and_self,
    if_true, ofDigitChars_digitChars, hvalue]

theorem tailChars_point {frac : List Char} (h : frac≠[]) (exp : Option Int) (rest : List Char) :
    tailChars frac exp ++ rest = '.' :: (frac ++ (tailChars [] exp ++ rest)) := by
  simp [tailChars, h]

theorem splitFraction_tail {frac : List Char} (hf : ∀ c∈frac, c.isDigit = true)
    (exp : Option Int) {rest : List Char} (hr : Follows rest) :
    splitFraction (tailChars frac exp ++ rest) = (frac, tailChars [] exp ++ rest) := by
  have hstops : Stops (tailChars [] exp ++ rest) := by
    cases exp with
    | none => exact hr.stops
    | some e => exact exponentChars_stops e rest
  by_cases h : frac=[]
  · subst h
    cases exp with
    | none => exact hr.fraction
    | some e => exact exponentChars_fraction e rest
  · rw [tailChars_point h]
    simp only [splitFraction, span_digits frac _ hf hstops, h, if_false]

theorem splitExponent_tail (exp : Option Int) {rest : List Char} (hr : Follows rest) :
    splitExponent (tailChars [] exp ++ rest) = (exp, rest) := by
  cases exp with
  | none => exact hr.exponent
  | some e => exact splitExponent_chars e hr

theorem tailChars_stops {frac : List Char} {exp : Option Int} (h : frac≠[] ∨ exp≠none)
    (rest : List Char) : Stops (tailChars frac exp ++ rest) := by
  by_cases hf : frac=[]
  · obtain ⟨e, rfl⟩ := Option.ne_none_iff_exists'.mp (h.resolve_left (not_not.mpr hf))
    subst hf
    exact exponentChars_stops e rest
  · rw [tailChars_point hf]
    exact stops_cons rfl

theorem readNumber_parts (neg : Bool) {p : List Char × List Char × Option Int}
    (h : Double.Proper p) {rest : List Char} (hr : Follows rest) :
    readNumber ((if neg then ['-'] else []) ++ (partsChars p ++ rest)) =
      some (.float (Double.ofParts neg p), rest) := by
  obtain ⟨whole, frac, exp⟩ := p
  obtain ⟨hwhole, hne, hlead, hfrac, hmarked⟩ := h
  simp only at hwhole hne hlead hfrac hmarked
  have hlead : ¬ (whole.head? = some '0' ∧ 1<whole.length) :=
    fun hz => absurd (hlead hz.1) (by omega)
  have hint : ¬ (frac=[] ∧ exp=none) := fun hz => hmarked.elim (· hz.1) (· hz.2)
  have hchars : partsChars (whole, frac, exp) ++ rest = whole ++ (tailChars frac exp ++ rest) := by
    simp [partsChars]
  rw [hchars, readNumber, splitMinus_digits hwhole hne _ neg]
  simp only [span_digits whole _ hwhole (tailChars_stops hmarked rest), hne, hlead, false_or,
    if_false, splitFraction_tail hfrac exp hr, splitExponent_tail exp hr, hint]

theorem readNumber_float (neg : Bool) {units : Nat} (exact : Double.Representable units)
    {rest : List Char} (hr : Follows rest) :
    readNumber (floatChars (.finite neg units exact) ++ rest) =
      some (.float (.finite neg units exact), rest) := by
  have hread := readNumber_parts neg (Double.parts_proper exact) hr
  rw [Double.ofParts_parts neg exact] at hread
  rw [floatChars, List.append_assoc]
  exact hread

end Json
