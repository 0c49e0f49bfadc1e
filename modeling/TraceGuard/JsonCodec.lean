import TraceGuard.JsonText

/-! Writing and reading whole JSON values. A canonical value is read back from its text, so
its text determines it. -/
open Digits

namespace Json

/-- What a writer puts behind a comma and behind a colon, and whether it escapes all that is
not ASCII. -/
structure Style where
  gap : List Char
  blank : ∀ c∈gap, c = ' '
  ascii : Bool := true

theorem blank_nil : ∀ c∈([] : List Char), c = ' ' := by simp

theorem blank_space : ∀ c∈[' '], c = ' ' := by simp

def compact : Style := { gap := [], blank := blank_nil }

def spaced : Style := { gap := [' '], blank := blank_space }

mutual
def chars (style : Style) : Json → List Char
  | .null => "null".toList
  | .bool true => "true".toList
  | .bool false => "false".toList
  | .int n => intChars n
  | .float x => floatChars x
  | .str s => stringChars style.ascii s.toList
  | .arr xs => '[' :: itemsChars style true xs
  | .obj ms => '{' :: membersChars style true ms
def itemsChars (style : Style) : Bool → List Json → List Char
  | _, [] => [']']
  | first, x :: xs =>
    (if first then [] else ',' :: style.gap) ++ (chars style x ++ itemsChars style false xs)
def membersChars (style : Style) : Bool → List (String × Json) → List Char
  | _, [] => ['}']
  | first, (k, v) :: ms =>
    (if first then [] else ',' :: style.gap) ++ (stringChars style.ascii k.toList ++
      (':' :: style.gap ++ (chars style v ++ membersChars style false ms)))
end

/-! A value can be written when its floats are finite. -/
mutual
def plain : Json → Bool
  | .float x => x.isFinite
  | .arr xs => plainItems xs
  | .obj ms => plainMembers ms
  | _ => true
def plainItems : List Json → Bool
  | [] => true
  | x :: xs => plain x && plainItems xs
def plainMembers : List (String × Json) → Bool
  | [] => true
  | (_, v) :: ms => plain v && plainMembers ms
end

def text (style : Style) (v : Json) : String := String.ofList (chars style v.sorted)

/-- `json.dumps(value, sort_keys=True, allow_nan=False)`; `none` is a `ValueError`. -/
def dumps (style : Style) (v : Json) : Option String :=
  if v.plain then some (text style v) else none

/-- `dict` of pairs: the first position and the last value of equal keys. -/
def putMember (k : String) (v : Json) : List (String × Json) → List (String × Json)
  | [] => [(k, v)]
  | (k', v') :: ms => if k=k' then (k', v) :: ms else (k', v') :: putMember k v ms

def dict (ms : List (String × Json)) : List (String × Json) :=
  ms.foldl (fun d m => putMember m.1 m.2 d) []

def isBlank (c : Char) : Bool := c = ' ' || c = '\t' || c = '\n' || c = '\r'

def skip (cs : List Char) : List Char := cs.dropWhile isBlank

/-- An object key and its colon, up to the value. -/
def readKey (cs : List Char) : Option (String × List Char) :=
  match cs with
  | '"' :: tail => do
    let (k, rest) ← readString tail.length tail
    match skip rest with
    | ':' :: rest => some (String.ofList k, skip rest)
    | _ => none
  | _ => none

mutual
def readValue : Nat → List Char → Option (Json × List Char)
  | 0, _ => none
  | n+1, cs =>
    match cs with
    | '"' :: tail => (readString tail.length tail).map fun p => (.str (String.ofList p.1), p.2)
    | '[' :: tail =>
      match skip tail with
      | ']' :: rest => some (.arr [], rest)
      | cs => do
        let (v, rest) ← readValue n cs
        let (vs, rest) ← readItems n rest
        some (.arr (v :: vs), rest)
    | '{' :: tail =>
      match skip tail with
      | '}' :: rest => some (.obj [], rest)
      | cs => do
        let (k, rest) ← readKey cs
        let (v, rest) ← readValue n rest
        let (ms, rest) ← readMembers n rest
        some (.obj (dict ((k, v) :: ms)), rest)
    | 'n' :: 'u' :: 'l' :: 'l' :: rest => some (.null, rest)
    | 't' :: 'r' :: 'u' :: 'e' :: rest => some (.bool true, rest)
    | 'f' :: 'a' :: 'l' :: 's' :: 'e' :: rest => some (.bool false, rest)
    | 'N' :: 'a' :: 'N' :: rest => some (.float .nan, rest)
    | 'I' :: 'n' :: 'f' :: 'i' :: 'n' :: 'i' :: 't' :: 'y' :: rest =>
      some (.float (.infinity false), rest)
    | '-' :: 'I' :: 'n' :: 'f' :: 'i' :: 'n' :: 'i' :: 't' :: 'y' :: rest =>
      some (.float (.infinity true), rest)
    | cs => readNumber cs
def readItems : Nat → List Char → Option (List Json × List Char)
  | 0, _ => none
  | n+1, cs =>
    match skip cs with
    | ']' :: rest => some ([], rest)
    | ',' :: rest => do
      let (v, rest) ← readValue n (skip rest)
      let (vs, rest) ← readItems n rest
      some (v :: vs, rest)
    | _ => none
def readMembers : Nat → List Char → Option (List (String × Json) × List Char)
  | 0, _ => none
  | n+1, cs =>
    match skip cs with
    | '}' :: rest => some ([], rest)
    | ',' :: rest => do
      let (k, rest) ← readKey (skip rest)
      let (v, rest) ← readValue n rest
      let (ms, rest) ← readMembers n rest
      some ((k, v) :: ms, rest)
    | _ => none
end

/-- `json.loads`; `none` is a `ValueError`. -/
def loads (text : String) : Option Json :=
  match readValue text.toList.length (skip text.toList) with
  | some (v, rest) => if skip rest=[] then some v else none
  | none => none

theorem putMember_new {k : String} (v : Json) {ms : List (String × Json)}
    (h : k∉ms.map Prod.fst) : putMember k v ms = ms++[(k, v)] := by
  induction ms with
  | nil => rfl
  | cons m ms ih =>
    simp only [List.map_cons, List.mem_cons, not_or] at h
    rw [putMember, if_neg h.1, ih h.2, List.cons_append]

/-- Members with distinct keys stay as they are. -/
theorem dict_nodup {ms : List (String × Json)} (h : (ms.map Prod.fst).Nodup) : dict ms = ms := by
  have hfold (d ms : List (String × Json)) (h : ((d++ms).map Prod.fst).Nodup) :
      ms.foldl (fun d m => putMember m.1 m.2 d) d = d++ms := by
    induction ms generalizing d with
    | nil => simp
    | cons m ms ih =>
      have hnew : m.1∉d.map Prod.fst := by
        intro hm
        rw [List.map_append, List.map_cons] at h
        exact (List.nodup_append.mp h).2.2 _ hm _ List.mem_cons_self rfl
      rw [List.foldl_cons, putMember_new m.2 hnew, ih _ (by simpa using h), List.append_assoc,
        List.singleton_append]
  exact hfold [] ms h

theorem skip_gap (style : Style) (cs : List Char) : skip (style.gap ++ cs) = skip cs := by
  have hblank : ∀ c∈style.gap, isBlank c = true := fun c hc => by
    rw [style.blank c hc]; rfl
  rw [skip, List.dropWhile_append_of_pos hblank, skip]

theorem digit_not_blank {c : Char} (h : c.isDigit = true) : isBlank c = false ∧ c ≠ ']' := by
  refine ⟨?_, ?_⟩
  · rcases hb : isBlank c with _ | _
    · rfl
    · simp only [isBlank, Bool.or_eq_true, decide_eq_true_eq] at hb
      rcases hb with ((rfl | rfl) | rfl) | rfl <;> exact absurd h (by decide)
  · rintro rfl
    exact absurd h (by decide)

/-- A value does not start with a blank or a closing bracket. -/
def Starts (cs : List Char) : Prop := ∀ c∈cs.head?, isBlank c = false ∧ c ≠ ']'

theorem Starts.skip {cs : List Char} (h : Starts cs) : skip cs = cs := by
  cases cs with
  | nil => rfl
  | cons c cs => simp [Json.skip, (h c rfl).1]

theorem starts_signed (neg : Bool) {ds : List Char} (hd : ∀ c∈ds, c.isDigit = true) (hne : ds≠[])
    (rest : List Char) : Starts ((if neg then ['-'] else []) ++ (ds ++ rest)) := by
  obtain ⟨d, ds, rfl⟩ := List.exists_cons_of_ne_nil hne
  cases neg with
  | true => simp [Starts, isBlank]
  | false =>
    intro c hc
    obtain rfl : d=c := by simpa using hc
    exact digit_not_blank (hd d (by simp))

theorem chars_starts (style : Style) {v : Json} (h : plain v = true) (rest : List Char) :
    Starts (chars style v ++ rest) := by
  cases v with
  | null => simp [chars, Starts, isBlank]
  | bool b => cases b <;> simp [chars, Starts, isBlank]
  | int n =>
    have := starts_signed (decide (n<0)) (fun c hc => digitChars_digit hc)
      (digitChars_ne_nil n.natAbs) rest
    simpa [chars, intChars] using this
  | float x =>
    cases x with
    | finite neg units exact =>
      have hproper := Double.parts_proper exact
      have := starts_signed neg hproper.whole hproper.nonempty
        (tailChars (Double.parts units).2.1 (Double.parts units).2.2 ++ rest)
      simpa [chars, floatChars, partsChars] using this
    | infinity | nan => simp [plain, Double.isFinite] at h
  | str s => simp [chars, stringChars, Starts, isBlank]
  | arr xs => simp [chars, Starts, isBlank]
  | obj ms => simp [chars, Starts, isBlank]

/-- Text that starts like a number is read by `readNumber`. -/
theorem readValue_number (n : Nat) (neg : Bool) {ds : List Char}
    (hd : ∀ c∈ds, c.isDigit = true) (hne : ds≠[]) (rest : List Char) :
    readValue (n+1) ((if neg then ['-'] else []) ++ (ds ++ rest)) =
      readNumber ((if neg then ['-'] else []) ++ (ds ++ rest)) := by
  obtain ⟨d, ds, rfl⟩ := List.exists_cons_of_ne_nil hne
  have hdigit := hd d (by simp)
  have ne (c : Char) (h : c.isDigit = false) : d≠c := by
    rintro rfl
    rw [hdigit] at h
    cases h
  cases neg with
  | true =>
    have h1 := ne 'I' rfl
    simp [readValue, h1]
  | false =>
    have h1 := ne '"' rfl
    have h2 := ne '[' rfl
    have h3 := ne '{' rfl
    have h4 := ne 'n' rfl
    have h5 := ne 't' rfl
    have h6 := ne 'f' rfl
    have h7 := ne 'N' rfl
    have h8 := ne 'I' rfl
    have h9 := ne '-' rfl
    simp [readValue, h1, h2, h3, h4, h5, h6, h7, h8, h9]

theorem readString_stringChars (ascii : Bool) (s rest : List Char) : ∃ tail,
    stringChars ascii s ++ rest = '"' :: tail ∧ readString tail.length tail = some (s, rest) := by
  refine ⟨s.flatMap (escapeChar ascii) ++ '"' :: rest, by simp [stringChars], ?_⟩
  refine readString_chars ascii s _ ?_ rest
  have := escaped_length ascii s
  simp only [List.length_append, List.length_cons]
  omega

theorem readKey_chars (style : Style) (k : String) {rest : List Char} (h : Starts rest) :
    readKey (stringChars style.ascii k.toList ++ (':' :: style.gap ++ rest)) = some (k, rest) := by
  obtain ⟨tail, htail, hread⟩ := readString_stringChars style.ascii k.toList (':' :: style.gap ++ rest)
  have hcolon : skip (':' :: style.gap ++ rest) = ':' :: (style.gap ++ rest) := rfl
  have hrest : skip (style.gap ++ rest) = rest := by rw [skip_gap, h.skip]
  rw [htail]
  simp only [readKey, hread, Option.bind_eq_bind, Option.bind_some, hcolon, hrest,
    String.ofList_toList]

theorem itemsChars_follows (style : Style) (xs : List Json) (rest : List Char) :
    Follows (itemsChars style false xs ++ rest) := by
  cases xs <;> simp [itemsChars, Follows]

theorem membersChars_follows (style : Style) (ms : List (String × Json)) (rest : List Char) :
    Follows (membersChars style false ms ++ rest) := by
  cases ms with
  | nil => simp [membersChars, Follows]
  | cons m ms => simp [membersChars, Follows]

theorem readValue_int (i : Int) (n : Nat) {rest : List Char} (hr : Follows rest) :
    readValue (n+1) (intChars i ++ rest) = some (.int i, rest) := by
  have hnumber := readValue_number n (decide (i<0)) (fun c hc => digitChars_digit hc)
    (digitChars_ne_nil i.natAbs) rest
  have hchars : (if decide (i<0) then ['-'] else []) ++ (digitChars i.natAbs ++ rest) =
      intChars i ++ rest := by
    simp [intChars]
  rw [hchars] at hnumber
  rw [hnumber, readNumber_int i hr]

theorem readValue_float {x : Double} (h : plain (.float x) = true) (n : Nat) {rest : List Char}
    (hr : Follows rest) : readValue (n+1) (floatChars x ++ rest) = some (.float x, rest) := by
  cases x with
  | finite neg units exact =>
    have hproper := Double.parts_proper exact
    have hnumber := readValue_number n neg hproper.whole hproper.nonempty
      (tailChars (Double.parts units).2.1 (Double.parts units).2.2 ++ rest)
    have hchars : (if neg then ['-'] else []) ++ ((Double.parts units).1 ++
        (tailChars (Double.parts units).2.1 (Double.parts units).2.2 ++ rest)) =
        floatChars (.finite neg units exact) ++ rest := by
      simp [floatChars, partsChars]
    rw [hchars] at hnumber
    rw [hnumber, readNumber_float neg exact hr]
  | infinity | nan => simp [plain, Double.isFinite] at h

theorem readValue_str (style : Style) (s : String) (n : Nat) (rest : List Char) :
    readValue (n+1) (stringChars style.ascii s.toList ++ rest) = some (.str s, rest) := by
  obtain ⟨tail, htail, hread⟩ := readString_stringChars style.ascii s.toList rest
  rw [htail]
  simp only [readValue, hread, Option.map_some, String.ofList_toList]

theorem readValue_arr {style : Style} {x : Json} {xs : List Json} {n : Nat} {rest : List Char}
    (hx : plain x = true)
    (h : readValue n (chars style x ++ (itemsChars style false xs ++ rest)) =
      some (x, itemsChars style false xs ++ rest))
    (hs : readItems n (itemsChars style false xs ++ rest) = some (xs, rest)) :
    readValue (n+1) (chars style (.arr (x :: xs)) ++ rest) = some (.arr (x :: xs), rest) := by
  have hstart := chars_starts style hx (itemsChars style false xs ++ rest)
  have hchars : chars style (.arr (x :: xs)) ++ rest =
      '[' :: (chars style x ++ (itemsChars style false xs ++ rest)) := by
    simp [chars, itemsChars]
  rw [hchars, readValue]
  split
  · rename_i heq
    rw [hstart.skip] at heq
    exact absurd rfl (hstart ']' (by rw [heq]; rfl)).2
  · simp only [hstart.skip, h, hs, Option.bind_eq_bind, Option.bind_some]

theorem readItems_cons {style : Style} {x : Json} {xs : List Json} {n : Nat} {rest : List Char}
    (hx : plain x = true)
    (h : readValue n (chars style x ++ (itemsChars style false xs ++ rest)) =
      some (x, itemsChars style false xs ++ rest))
    (hs : readItems n (itemsChars style false xs ++ rest) = some (xs, rest)) :
    readItems (n+1) (itemsChars style false (x :: xs) ++ rest) = some (x :: xs, rest) := by
  have hstart := chars_starts style hx (itemsChars style false xs ++ rest)
  have hchars : itemsChars style false (x :: xs) ++ rest =
      ',' :: (style.gap ++ (chars style x ++ (itemsChars style false xs ++ rest))) := by
    simp [itemsChars]
  have hskip (cs : List Char) : skip (',' :: cs) = ',' :: cs := rfl
  rw [hchars]
  simp only [readItems, hskip, skip_gap, hstart.skip, h, hs, Option.bind_eq_bind, Option.bind_some]

theorem readValue_obj {style : Style} {k : String} {v : Json} {ms : List (String × Json)} {n : Nat}
    {rest : List Char} (hv : plain v = true) (hk : (((k, v) :: ms).map Prod.fst).Nodup)
    (h : readValue n (chars style v ++ (membersChars style false ms ++ rest)) =
      some (v, membersChars style false ms ++ rest))
    (hs : readMembers n (membersChars style false ms ++ rest) = some (ms, rest)) :
    readValue (n+1) (chars style (.obj ((k, v) :: ms)) ++ rest) =
      some (.obj ((k, v) :: ms), rest) := by
  have hstart := chars_starts style hv (membersChars style false ms ++ rest)
  have hkey := readKey_chars style k hstart
  have hchars : chars style (.obj ((k, v) :: ms)) ++ rest = '{' :: (stringChars style.ascii k.toList ++
      (':' :: style.gap ++ (chars style v ++ (membersChars style false ms ++ rest)))) := by
    simp [chars, membersChars]
  have hskip (cs : List Char) : skip (stringChars style.ascii k.toList ++ cs) = stringChars style.ascii k.toList ++ cs := rfl
  rw [hchars, readValue]
  split
  · rename_i heq
    rw [hskip] at heq
    cases heq
  · simp only [hskip, hkey, h, hs, Option.bind_eq_bind, Option.bind_some, dict_nodup hk]

theorem readMembers_cons {style : Style} {k : String} {v : Json} {ms : List (String × Json)}
    {n : Nat} {rest : List Char} (hv : plain v = true)
    (h : readValue n (chars style v ++ (membersChars style false ms ++ rest)) =
      some (v, membersChars style false ms ++ rest))
    (hs : readMembers n (membersChars style false ms ++ rest) = some (ms, rest)) :
    readMembers (n+1) (membersChars style false ((k, v) :: ms) ++ rest) =
      some ((k, v) :: ms, rest) := by
  have hstart := chars_starts style hv (membersChars style false ms ++ rest)
  have hkey := readKey_chars style k hstart
  have hchars : membersChars style false ((k, v) :: ms) ++ rest =
      ',' :: (style.gap ++ (stringChars style.ascii k.toList ++ (':' :: style.gap ++
        (chars style v ++ (membersChars style false ms ++ rest))))) := by
    simp [membersChars]
  have hskip (cs : List Char) : skip (',' :: cs) = ',' :: cs := rfl
  have hquote (cs : List Char) : skip (stringChars style.ascii k.toList ++ cs) = stringChars style.ascii k.toList ++ cs := rfl
  rw [hchars]
  simp only [readMembers, hskip, skip_gap, hquote, hkey, h, hs, Option.bind_eq_bind,
    Option.bind_some]

theorem floatChars_ne_nil (x : Double) : floatChars x≠[] := by
  cases x with
  | finite neg units exact =>
    have hne := (Double.parts_proper exact).nonempty
    cases neg <;> simp [floatChars, partsChars, hne]
  | infinity neg => cases neg <;> simp [floatChars]
  | nan => simp [floatChars]

/-- No object has a key twice. -/
inductive Distinct : Json → Prop where
  | null : Distinct .null
  | bool (b : Bool) : Distinct (.bool b)
  | int (n : Int) : Distinct (.int n)
  | float (x : Double) : Distinct (.float x)
  | str (s : String) : Distinct (.str s)
  | arr {xs : List Json} (items : ∀ x∈xs, Distinct x) : Distinct (.arr xs)
  | obj {ms : List (String × Json)} (keys : (ms.map Prod.fst).Nodup)
      (members : ∀ m∈ms, Distinct m.2) : Distinct (.obj ms)

theorem Canonical.distinct {v : Json} (h : Canonical v) : Distinct v := by
  induction h with
  | null => exact .null
  | bool b => exact .bool b
  | int n => exact .int n
  | float x => exact .float x
  | str s => exact .str s
  | arr _ ih => exact .arr ih
  | obj order _ ih => exact .obj (List.pairwise_map.mpr (order.imp ne_of_lt)) ih

/-- The end of a number shows only in what follows. -/
def isNumber : Json → Bool
  | .int _ | .float _ => true
  | _ => false

/-! Reading what was written; the fuel is at least the number of characters. -/
mutual
theorem readValue_chars (style : Style) : (v : Json) → Distinct v → plain v = true → (n : Nat) →
    (chars style v).length≤n → (rest : List Char) → (v.isNumber = true → Follows rest) →
    readValue n (chars style v ++ rest) = some (v, rest)
  | .null, _, _, n+1, _, rest, _ => rfl
  | .bool true, _, _, n+1, _, rest, _ => rfl
  | .bool false, _, _, n+1, _, rest, _ => rfl
  | .int i, _, hp, n, hn, rest, hr => by
    obtain ⟨k, rfl⟩ : ∃ k, n=k+1 := ⟨n-1, by
      have := List.length_pos_iff.mpr (digitChars_ne_nil i.natAbs)
      simp only [chars, intChars, List.length_append] at hn
      omega⟩
    exact readValue_int i k (hr rfl)
  | .float x, _, hp, n, hn, rest, hr => by
    obtain ⟨k, rfl⟩ : ∃ k, n=k+1 := ⟨n-1, by
      have := List.length_pos_iff.mpr (floatChars_ne_nil x)
      simp only [chars] at hn
      omega⟩
    exact readValue_float hp k (hr rfl)
  | .str s, _, _, n+1, _, rest, _ => readValue_str style s n rest
  | .arr [], _, _, n+1, _, rest, _ => rfl
  | .arr (x :: xs), .arr items, hp, n+1, hn, rest, _ => by
    simp only [plain, plainItems, Bool.and_eq_true] at hp
    simp only [chars, itemsChars, if_true, List.nil_append, List.length_cons,
      List.length_append] at hn
    refine readValue_arr hp.1 ?_ ?_
    · exact readValue_chars style x (items x List.mem_cons_self) hp.1 n (by omega) _
        fun _ => itemsChars_follows style xs rest
    · exact readItems_chars style xs (fun y hy => items y (List.mem_cons_of_mem _ hy)) hp.2 n
        (by omega) rest
  | .obj [], _, _, n+1, _, rest, _ => rfl
  | .obj ((k, v) :: ms), .obj keys members, hp, n+1, hn, rest, _ => by
    simp only [plain, plainMembers, Bool.and_eq_true] at hp
    simp only [chars, membersChars, if_true, List.nil_append, List.length_cons,
      List.length_append] at hn
    refine readValue_obj hp.1 keys ?_ ?_
    · exact readValue_chars style v (members _ List.mem_cons_self) hp.1 n (by omega) _
        fun _ => membersChars_follows style ms rest
    · exact readMembers_chars style ms (fun m hm => members m (List.mem_cons_of_mem _ hm)) hp.2 n
        (by omega) rest
theorem readItems_chars (style : Style) : (xs : List Json) → (∀ x∈xs, Distinct x) →
    plainItems xs = true → (n : Nat) → (itemsChars style false xs).length≤n →
    (rest : List Char) → readItems n (itemsChars style false xs ++ rest) = some (xs, rest)
  | [], _, _, n+1, _, rest => rfl
  | x :: xs, hc, hp, n+1, hn, rest => by
    simp only [plainItems, Bool.and_eq_true] at hp
    simp only [itemsChars, Bool.false_eq_true, if_false, List.length_cons,
      List.length_append] at hn
    refine readItems_cons hp.1 ?_ ?_
    · exact readValue_chars style x (hc x List.mem_cons_self) hp.1 n (by omega) _
        fun _ => itemsChars_follows style xs rest
    · exact readItems_chars style xs (fun y hy => hc y (List.mem_cons_of_mem _ hy)) hp.2 n
        (by omega) rest
theorem readMembers_chars (style : Style) : (ms : List (String × Json)) →
    (∀ m∈ms, Distinct m.2) → plainMembers ms = true → (n : Nat) →
    (membersChars style false ms).length≤n →
    (rest : List Char) → readMembers n (membersChars style false ms ++ rest) = some (ms, rest)
  | [], _, _, n+1, _, rest => rfl
  | (k, v) :: ms, hc, hp, n+1, hn, rest => by
    simp only [plainMembers, Bool.and_eq_true] at hp
    simp only [membersChars, Bool.false_eq_true, if_false, List.length_cons,
      List.length_append] at hn
    refine readMembers_cons hp.1 ?_ ?_
    · exact readValue_chars style v (hc _ List.mem_cons_self) hp.1 n (by omega) _
        fun _ => membersChars_follows style ms rest
    · exact readMembers_chars style ms (fun m hm => hc m (List.mem_cons_of_mem _ hm)) hp.2 n
        (by omega) rest
end

theorem plainItems_iff {xs : List Json} : plainItems xs = true ↔ ∀ x∈xs, plain x = true := by
  induction xs with
  | nil => simp [plainItems]
  | cons x xs ih => simp [plainItems, ih]

theorem plainMembers_iff {ms : List (String × Json)} :
    plainMembers ms = true ↔ ∀ m∈ms, plain m.2 = true := by
  induction ms with
  | nil => simp [plainMembers]
  | cons m ms ih => simp [plainMembers, ih]

/-! Sorting keeps a value writable. -/
mutual
theorem plain_sorted : (v : Json) → plain v = true → plain v.sorted = true
  | .null, _ | .bool _, _ | .str _, _ => rfl
  | .int _, _ => rfl
  | .float _, h => h
  | .arr xs, h => plain_sortedItems xs h
  | .obj ms, h => by
    refine plainMembers_iff.mpr fun m hm => ?_
    rcases foldl_insert_mem hm with he | he
    · exact plainMembers_iff.mp (plain_sortedMembers ms h) m he
    · cases he
theorem plain_sortedItems : (xs : List Json) → plainItems xs = true →
    plainItems (sortedItems xs) = true
  | [], _ => rfl
  | x :: xs, h => by
    simp only [plainItems, Bool.and_eq_true] at h
    simp only [sortedItems, plainItems, plain_sorted x h.1, plain_sortedItems xs h.2, Bool.and_self]
theorem plain_sortedMembers : (ms : List (String × Json)) → plainMembers ms = true →
    plainMembers (sortedMembers ms) = true
  | [], _ => rfl
  | (k, v) :: ms, h => by
    simp only [plainMembers, Bool.and_eq_true] at h
    simp only [sortedMembers, plainMembers, plain_sorted v h.1, plain_sortedMembers ms h.2,
      Bool.and_self]
end

/-- `json.loads` gives back what was written. -/
theorem loads_chars (style : Style) {v : Json} (hd : Distinct v) (h : plain v = true) :
    loads (String.ofList (chars style v)) = some v := by
  have hread := readValue_chars style v hd h _ le_rfl [] fun _ => follows_nil
  have hstart := (chars_starts style h []).skip
  rw [List.append_nil] at hread hstart
  rw [loads, String.toList_ofList, hstart, hread]
  rfl

/-- With sorted keys, the value comes back with the keys of every object sorted. -/
theorem loads_text (style : Style) {v : Json} (h : plain v = true) :
    loads (text style v) = some v.sorted :=
  loads_chars style (canonical_sorted v).distinct (plain_sorted v h)

/-- The text determines the value up to the order of members. -/
theorem text_inj {style : Style} {v w : Json} (hv : plain v = true) (hw : plain w = true)
    (h : text style v = text style w) : v.sorted = w.sorted := by
  have hread := loads_text style hv
  rw [h, loads_text style hw] at hread
  exact (Option.some.inj hread).symm

/-- What follows the text of a value is found behind it, unless the value is a number. -/
theorem chars_append_inj {style : Style} {v w : Json} (hv : Distinct v) (hw : Distinct w)
    (pv : plain v = true) (pw : plain w = true) (nv : v.isNumber = false) (nw : w.isNumber = false)
    {rest rest' : List Char} (h : chars style v++rest = chars style w++rest') : v=w ∧ rest=rest' := by
  have hread := readValue_chars style v hv pv ((chars style v).length+(chars style w).length)
    (Nat.le_add_right _ _) rest fun hn => absurd (nv.symm.trans hn) (by decide)
  have hread' := readValue_chars style w hw pw ((chars style v).length+(chars style w).length)
    (Nat.le_add_left _ _) rest' fun hn => absurd (nw.symm.trans hn) (by decide)
  rw [h, hread'] at hread
  cases hread
  exact ⟨rfl, rfl⟩

theorem dumps_plain {style : Style} {v : Json} (h : plain v = true) :
    dumps style v = some (text style v) := if_pos h

theorem plain_of_dumps {style : Style} {v : Json} {written : String}
    (h : dumps style v = some written) : plain v = true := by
  by_contra hp
  rw [dumps, if_neg hp] at h
  cases h

theorem loads_dumps {style : Style} {v : Json} {written : String}
    (h : dumps style v = some written) : loads written = some v.sorted := by
  by_cases hp : plain v = true
  · rw [dumps_plain hp] at h
    cases h
    exact loads_text style hp
  · rw [dumps, if_neg hp] at h
    cases h

end Json
