import Mathlib.Tactic.Set
import TraceGuard.Digits

/-! Civil dates and times of the proleptic Gregorian calendar, years 1 to 9999, as counts
of microseconds; their ISO texts, and reading such a text back. -/
open Digits

namespace Calendar

def isLeap (year : Nat) : Bool := year%4=0 && (year%100≠0 || year%400=0)

def daysInMonth (leap : Bool) (month : Nat) : Nat :=
  if month=2 then if leap then 29 else 28
  else if month=4 ∨ month=6 ∨ month=9 ∨ month=11 then 30 else 31

/-- Days of the year before the first of the month. -/
def daysBeforeMonth (leap : Bool) (month : Nat) : Nat :=
  ((List.range' 1 (month-1)).map (daysInMonth leap)).sum

/-- Days before the first of January. -/
def daysBeforeYear (year : Nat) : Nat :=
  (year-1)*365+(year-1)/4-(year-1)/100+(year-1)/400

/-- The month of a day of the year counted from 0. -/
def monthOf (leap : Bool) (n : Nat) : Nat :=
  (List.range' 1 12).countP fun month => daysBeforeMonth leap month≤n

/-- The year of a day counted from 0. -/
def yearOf (n : Nat) : Nat :=
  let m := n%146097
  let century := min (m/36524) 3
  let m := m-century*36524
  let rest := m%1461
  n/146097*400+century*100+m/1461*4+min (rest/365) 3+1

/-- Year, month and day of a day counted from 0. -/
def civil (n : Nat) : Nat × Nat × Nat :=
  let year := yearOf n
  let day := n-daysBeforeYear year
  let month := monthOf (isLeap year) day
  (year, month, day-daysBeforeMonth (isLeap year) month+1)

def ordinal (date : Nat × Nat × Nat) : Nat :=
  daysBeforeYear date.1+daysBeforeMonth (isLeap date.1) date.2.1+(date.2.2-1)

theorem monthOf_spec : ∀ leap : Bool, ∀ n < (if leap then 366 else 365),
    1 ≤ monthOf leap n ∧ monthOf leap n≤12 ∧ daysBeforeMonth leap (monthOf leap n)≤n ∧
      n-daysBeforeMonth leap (monthOf leap n) < daysInMonth leap (monthOf leap n) := by
  decide +kernel

theorem yearOf_spec (n : Nat) :
    daysBeforeYear (yearOf n)≤n ∧
      n-daysBeforeYear (yearOf n) < if isLeap (yearOf n) then 366 else 365 := by
  have hyear : yearOf n = n/146097*400+min (n%146097/36524) 3*100+
      (n%146097-min (n%146097/36524) 3*36524)/1461*4+
      min ((n%146097-min (n%146097/36524) 3*36524)%1461/365) 3+1 := rfl
  set a := n/146097 with ha
  set b := min (n%146097/36524) 3 with hb
  set c := (n%146097-b*36524)/1461 with hc
  set d := min ((n%146097-b*36524)%1461/365) 3 with hd
  have hb3 : b≤3 := by omega
  have hc24 : c≤24 := by omega
  have hd3 : d≤3 := by omega
  have hbefore : daysBeforeYear (yearOf n) = 146097*a+36524*b+1461*c+365*d := by
    rw [hyear, daysBeforeYear]
    omega
  have hleap : isLeap (yearOf n) = true ↔ d=3 ∧ (c≠24 ∨ b=3) := by
    rw [hyear, isLeap]
    simp only [Bool.and_eq_true, Bool.or_eq_true, decide_eq_true_eq]
    omega
  refine ⟨by omega, ?_⟩
  split_ifs with h
  · omega
  · have hno := mt hleap.mpr h
    omega

/-- Days up to the end of the year 9999. -/
def lastDay : Nat := 3652059

theorem yearOf_range {n : Nat} (h : n<lastDay) : 1≤yearOf n ∧ yearOf n≤9999 := by
  simp only [yearOf, lastDay] at *
  omega

/-- A day is found again from its date. -/
theorem ordinal_civil (n : Nat) : ordinal (civil n) = n := by
  obtain ⟨hle, hlt⟩ := yearOf_spec n
  obtain ⟨h1, h12, hmonth, hday⟩ := monthOf_spec (isLeap (yearOf n)) _ hlt
  simp only [ordinal, civil]
  omega

/-! Texts of fixed width. -/

def padded (k n : Nat) : List Char :=
  List.replicate (k-(digitChars n).length) '0' ++ digitChars n

def readPadded (k : Nat) (cs : List Char) : Option (Nat × List Char) :=
  if (cs.take k).length=k ∧ (cs.take k).all Char.isDigit then
    some (ofDigitChars (cs.take k), cs.drop k)
  else none

def expect (c : Char) : List Char → Option (List Char)
  | d :: rest => if d=c then some rest else none
  | [] => none

theorem padded_length {k n : Nat} (hk : 0<k) (h : n<10^k) : (padded k n).length = k := by
  have hlen : (digitChars n).length≤k := (Nat.length_toDigits_le_iff (by omega) hk).mpr h
  rw [padded, List.length_append, List.length_replicate]
  omega

theorem padded_digit (k n : Nat) : ∀ c∈padded k n, c.isDigit = true := by
  intro c hc
  rcases List.mem_append.mp hc with hz | hd
  · rw [List.eq_of_mem_replicate hz]; rfl
  · exact digitChars_digit hd

theorem readPadded_padded {k n : Nat} (hk : 0<k) (h : n<10^k) (rest : List Char) :
    readPadded k (padded k n ++ rest) = some (n, rest) := by
  have hlen := padded_length hk h
  have htake : (padded k n ++ rest).take k = padded k n := List.take_left' hlen
  have hdrop : (padded k n ++ rest).drop k = rest := List.drop_left' hlen
  have hall : (padded k n).all Char.isDigit = true := List.all_eq_true.mpr (padded_digit k n)
  have hvalue : ofDigitChars (padded k n) = n := by
    rw [padded, ofDigitChars_zeros, ofDigitChars_digitChars]
  rw [readPadded, htake, hdrop, hvalue, if_pos ⟨hlen, hall⟩]

@[simp] theorem expect_cons (c : Char) (rest : List Char) : expect c (c :: rest) = some rest := by
  simp [expect]

end Calendar

/-- A moment in UTC, in microseconds from the start of the year 1 to the end of 9999. -/
structure Instant where
  micros : Nat
  range : micros < Calendar.lastDay*86400000000
  deriving DecidableEq

theorem Instant.zero_range : 0 < Calendar.lastDay*86400000000 := by decide

/-- Ten minutes from the start. -/
theorem Instant.minutes_range : 600000000 < Calendar.lastDay*86400000000 := by decide

/-- `t + timedelta`; it stops at the end of the year 9999. -/
def Instant.later (t : Instant) (micros : Nat) : Instant where
  micros := min (t.micros+micros) (Calendar.lastDay*86400000000-1)
  range := by
    have := zero_range
    omega

/-- A `datetime`: a wall clock with an offset from UTC in minutes, or none. -/
structure Datetime where
  wall : Instant
  offset : Option Int
  zone : ∀ m∈offset, -1440 < m ∧ m<1440
  deriving DecidableEq

namespace Datetime
open Calendar

def utc (t : Instant) : Datetime := ⟨t, some 0, by simp⟩

/-- The moment in UTC, in microseconds; a naive `datetime` has none. -/
def moment (d : Datetime) : Option Int := d.offset.map fun m => d.wall.micros-m*60000000

/-- `now < d` of an aware `datetime`. -/
def after (d : Datetime) (now : Instant) : Bool :=
  match d.moment with
  | some micros => now.micros < micros
  | none => false

theorem lt_of_after_later {t now : Instant} {micros : Nat}
    (h : (utc (t.later micros)).after now = true) : now.micros < t.micros+micros := by
  simp only [after, moment, utc, Instant.later, Option.map_some,
    decide_eq_true_eq] at h
  omega

def dateChars (date : Nat × Nat × Nat) : List Char :=
  padded 4 date.1 ++ '-' :: (padded 2 date.2.1 ++ '-' :: padded 2 date.2.2)

/-- Time of day; the fraction is left out when it is zero. -/
def clockChars (micros : Nat) : List Char :=
  padded 2 (micros/3600000000) ++ ':' :: (padded 2 (micros/60000000%60) ++ ':' ::
    (padded 2 (micros/1000000%60) ++
      if micros%1000000=0 then [] else '.' :: padded 6 (micros%1000000)))

/-- Offset part of the text; `zulu` writes UTC as `Z`. -/
def offsetChars (zulu : Bool) : Option Int → List Char
  | none => []
  | some m =>
    if m=0 ∧ zulu then ['Z']
    else (if m<0 then '-' else '+') ::
      (padded 2 (m.natAbs/60) ++ ':' :: padded 2 (m.natAbs%60))

/-- `isoformat()`, and with `zulu` what a model writes into JSON. -/
def text (zulu : Bool) (d : Datetime) : String :=
  String.ofList (dateChars (civil (d.wall.micros/86400000000)) ++ 'T' ::
    (clockChars (d.wall.micros%86400000000) ++ offsetChars zulu d.offset))

def readDate (cs : List Char) : Option (Nat × List Char) := do
  let (year, cs) ← readPadded 4 cs
  let cs ← expect '-' cs
  let (month, cs) ← readPadded 2 cs
  let cs ← expect '-' cs
  let (day, cs) ← readPadded 2 cs
  if 1≤year ∧ 1 ≤ month ∧ month≤12 ∧ 1≤day ∧ day≤daysInMonth (isLeap year) month then
    some (ordinal (year, month, day), cs)
  else none

def readClock (cs : List Char) : Option (Nat × List Char) := do
  let (hour, cs) ← readPadded 2 cs
  let cs ← expect ':' cs
  let (minute, cs) ← readPadded 2 cs
  let cs ← expect ':' cs
  let (second, cs) ← readPadded 2 cs
  let (micro, cs) ←
    match cs with
    | '.' :: cs => readPadded 6 cs
    | cs => some (0, cs)
  if hour<24 ∧ minute<60 ∧ second<60 then
    some (hour*3600000000+minute*60000000+second*1000000+micro, cs)
  else none

def readOffset : List Char → Option (Option Int)
  | [] => some none
  | c :: cs =>
    if c = 'Z' then if cs=[] then some (some 0) else none
    else do
      let (hours, cs) ← readPadded 2 cs
      let cs ← expect ':' cs
      let (minutes, cs) ← readPadded 2 cs
      if cs=[] ∧ minutes<60 ∧ hours<24 ∧ (c = '-' ∨ c = '+') then
        some (some (if c = '-' then -(hours*60+minutes:Int) else hours*60+minutes))
      else none

/-- Reads the texts that `text` writes. -/
def ofText (s : String) : Option Datetime := do
  let (day, cs) ← readDate s.toList
  let cs ← expect 'T' cs
  let (micros, cs) ← readClock cs
  let offset ← readOffset cs
  if h : day*86400000000+micros < lastDay*86400000000 ∧ ∀ m∈offset, -1440 < m ∧ m<1440 then
    some ⟨⟨day*86400000000+micros, h.1⟩, offset, h.2⟩
  else none

theorem readDate_chars {n : Nat} (h : n<lastDay) (rest : List Char) :
    readDate (dateChars (civil n) ++ rest) = some (n, rest) := by
  obtain ⟨hy1, hy2⟩ := yearOf_range h
  obtain ⟨-, hlt⟩ := yearOf_spec n
  obtain ⟨hm1, hm2, -, hday⟩ := monthOf_spec (isLeap (yearOf n)) _ hlt
  have hback := ordinal_civil n
  have hd31 (leap : Bool) (month : Nat) : daysInMonth leap month≤31 := by
    unfold daysInMonth
    split_ifs <;> omega
  have hd := hd31 (isLeap (yearOf n)) (monthOf (isLeap (yearOf n)) (n-daysBeforeYear (yearOf n)))
  simp only [civil] at hback ⊢
  set year := yearOf n
  set month := monthOf (isLeap year) (n-daysBeforeYear year)
  set day := n-daysBeforeYear year-daysBeforeMonth (isLeap year) month
  have hvalid : 1≤year ∧ 1 ≤ month ∧ month≤12 ∧ 1≤day+1 ∧ day+1≤daysInMonth (isLeap year) month := by
    omega
  have hyear := readPadded_padded (k := 4) (n := year) (by omega) (by omega)
  have hmonth := readPadded_padded (k := 2) (n := month) (by omega) (by omega)
  have hdate := readPadded_padded (k := 2) (n := day+1) (by omega) (by omega)
  simp only [dateChars, List.append_assoc, List.cons_append, readDate, hyear, hmonth, hdate,
    expect_cons, Option.bind_eq_bind, Option.bind_some]
  rw [if_pos hvalid, hback]

theorem readClock_chars {n : Nat} (h : n < 86400000000) {rest : List Char}
    (hr : ∀ c∈rest.head?, c ≠ '.') : readClock (clockChars n ++ rest) = some (n, rest) := by
  have hhour := readPadded_padded (k := 2) (n := n/3600000000) (by omega) (by omega)
  have hminute := readPadded_padded (k := 2) (n := n/60000000%60) (by omega) (by omega)
  have hsecond := readPadded_padded (k := 2) (n := n/1000000%60) (by omega) (by omega)
  have hmicro := readPadded_padded (k := 6) (n := n%1000000) (by omega) (by omega)
  have hvalid : n/3600000000<24 ∧ n/60000000%60<60 ∧ n/1000000%60<60 := by omega
  have hsum (m : Nat) (hm : m=n%1000000) :
      n/3600000000*3600000000+n/60000000%60*60000000+n/1000000%60*1000000+m = n := by omega
  simp only [clockChars, List.append_assoc, List.cons_append, readClock, hhour, hminute, hsecond,
    expect_cons, Option.bind_eq_bind, Option.bind_some]
  by_cases h0 : n%1000000=0
  · rw [if_pos h0, List.nil_append]
    split
    · rename_i cs
      exact absurd rfl (hr '.' rfl)
    · rw [if_pos hvalid, hsum 0 h0.symm]
  · rw [if_neg h0, List.cons_append]
    simp only [hmicro, Option.bind_some]
    rw [if_pos hvalid, hsum _ rfl]

theorem readOffset_chars (zulu : Bool) {o : Option Int} (h : ∀ m∈o, -1440 < m ∧ m<1440) :
    readOffset (offsetChars zulu o) = some o := by
  cases o with
  | none => rfl
  | some m =>
    obtain ⟨hlow, hhigh⟩ := h m rfl
    simp only [offsetChars]
    split_ifs with hz hneg
    · rw [hz.1]; rfl
    all_goals
      have hhours := readPadded_padded (k := 2) (n := m.natAbs/60) (by omega) (by omega)
        (':' :: padded 2 (m.natAbs%60))
      have hminutes := readPadded_padded (k := 2) (n := m.natAbs%60) (by omega) (by omega)
      have hvalid : m.natAbs%60<60 ∧ m.natAbs/60<24 := by omega
      have hminutes := hminutes []
      rw [List.append_nil] at hminutes
      simp only [readOffset, hhours, hminutes, expect_cons, Option.bind_eq_bind, Option.bind_some,
        hvalid, true_and, true_or, or_true, if_true, Option.some.injEq, Char.reduceEq, if_false]
      omega

theorem offsetChars_head (zulu : Bool) (o : Option Int) :
    ∀ c∈(offsetChars zulu o).head?, c ≠ '.' := by
  cases o with
  | none => simp [offsetChars]
  | some m =>
    simp only [offsetChars]
    split_ifs <;> simp

/-- A written time is read back, so its text determines it. -/
theorem ofText_text (zulu : Bool) (d : Datetime) : ofText (d.text zulu) = some d := by
  have hrange := d.wall.range
  have hday : d.wall.micros/86400000000<lastDay := by
    rw [Nat.div_lt_iff_lt_mul (by omega)]
    exact hrange
  have hsum : d.wall.micros/86400000000*86400000000+d.wall.micros%86400000000 = d.wall.micros := by
    omega
  have hclock := readClock_chars (n := d.wall.micros%86400000000) (Nat.mod_lt _ (by omega))
    (offsetChars_head zulu d.offset)
  simp only [ofText, text, String.toList_ofList, readDate_chars hday, expect_cons, hclock,
    readOffset_chars zulu d.zone, Option.bind_eq_bind, Option.bind_some, hsum]
  rw [dif_pos ⟨hrange, d.zone⟩]

end Datetime
