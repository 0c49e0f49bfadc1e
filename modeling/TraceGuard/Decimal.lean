import Mathlib.Algebra.Order.Field.Rat
import Mathlib.Algebra.Order.GroupWithZero.Basic
import Mathlib.Tactic.FieldSimp
import Mathlib.Tactic.Linarith
import Mathlib.Tactic.Ring
import TraceGuard.Digits
import TraceGuard.Rounding

/-! Python's `decimal.Decimal` under the default context: 28 significant digits,
half-even rounding, traps on invalid operation and overflow. -/
namespace TraceGuard
open Rounding Digits

inductive Decimal where
  | finite (neg : Bool) (coeff : Nat) (exp : Int)
  | infinity (neg : Bool)
  | nan (neg signaling : Bool) (payload : Nat)
  deriving DecidableEq, Repr

namespace Decimal

/-- The signals the default context traps. -/
inductive Signal where
  | invalidOperation
  | overflow
  deriving DecidableEq, Repr

def prec : Nat := 28
def emax : Int := 999999
def emin : Int := -999999
def etiny : Int := emin-prec+1
def etop : Int := emax-prec+1

def ofNat (n : Nat) : Decimal := .finite false n 0

def isFinite : Decimal → Bool
  | .finite .. => true
  | _ => false

/-- `amount < 0` of a finite number; minus zero is not below zero. -/
def isNegative : Decimal → Bool
  | .finite neg coeff _ => neg && coeff≠0
  | .infinity neg => neg
  | .nan .. => false

def signed (neg : Bool) (coeff : Nat) : Int := if neg then -(coeff:Int) else coeff

/-- Coefficient of the number at the lower exponent `e`. -/
def scaled (neg : Bool) (coeff : Nat) (exp e : Int) : Int :=
  signed neg coeff*10^(exp-e).toNat

/-- `Decimal._fix`: round to the context, or raise on overflow. -/
def fix (neg : Bool) (coeff : Nat) (exp : Int) : Except Signal Decimal :=
  if coeff=0 then .ok (.finite neg 0 (min (max exp etiny) emax))
  else
    let expMin := (width 10 coeff:Int)+exp-prec
    if etop<expMin then .error .overflow
    else
      let expMin := max expMin etiny
      if exp<expMin then
        let rounded := halfEven coeff (10^(expMin-exp).toNat)
        -- a carry out of the leading digit needs one digit less
        if prec<width 10 rounded then
          if etop<expMin+1 then .error .overflow else .ok (.finite neg (rounded/10) (expMin+1))
        else .ok (.finite neg rounded expMin)
      else .ok (.finite neg coeff exp)

def add : Decimal → Decimal → Except Signal Decimal
  | .nan _ true _, _ | _, .nan _ true _ => .error .invalidOperation
  | a@(.nan ..), _ => .ok a
  | _, b@(.nan ..) => .ok b
  | .infinity s, .infinity t => if s=t then .ok (.infinity s) else .error .invalidOperation
  | .infinity s, .finite .. | .finite .., .infinity s => .ok (.infinity s)
  | .finite n₁ c₁ e₁, .finite n₂ c₂ e₂ =>
    let e := min e₁ e₂
    let v := scaled n₁ c₁ e₁ e+scaled n₂ c₂ e₂ e
    fix (v<0 || (v=0 && n₁ && n₂)) v.natAbs e

/-- `a > b`: an ordering comparison with any NaN signals. -/
def gt : Decimal → Decimal → Except Signal Bool
  | .nan .., _ | _, .nan .. => .error .invalidOperation
  | .infinity s, .infinity t => .ok (!s && t)
  | .infinity s, .finite .. => .ok (!s)
  | .finite .., .infinity t => .ok t
  | .finite n₁ c₁ e₁, .finite n₂ c₂ e₂ =>
    let e := min e₁ e₂
    .ok (scaled n₂ c₂ e₂ e < scaled n₁ c₁ e₁ e)

/-! The texts. `str` writes scientific notation only where `str(Decimal)` does. -/

/-- Sign, digits with the point, and exponent part of a finite number. -/
def finiteChars (neg : Bool) (coeff : Nat) (exp : Int) : List Char :=
  let ds := digitChars coeff
  let left := exp+ds.length
  let dot := if exp≤0 ∧ -6<left then left else 1
  let body :=
    if dot≤0 then '0' :: '.' :: (List.replicate (-dot).toNat '0'++ds)
    else if ds.length≤dot then ds++List.replicate (dot.toNat-ds.length) '0'
    else ds.take dot.toNat ++ '.' :: ds.drop dot.toNat
  let power := left-dot
  let tail :=
    if power=0 then []
    else 'E' :: (if power<0 then '-' else '+') :: digitChars power.natAbs
  (if neg then ['-'] else [])++(body++tail)

def str : Decimal → String
  | .finite neg coeff exp => String.ofList (finiteChars neg coeff exp)
  | .infinity neg => if neg then "-Infinity" else "Infinity"
  | .nan neg signaling payload =>
    (if neg then "-" else "")++(if signaling then "sNaN" else "NaN")++
      (if payload=0 then "" else toString payload)

/-- The characters `str.strip` removes. -/
def isSpace (c : Char) : Bool :=
  let n := c.toNat
  (9≤n && n≤13) || (28≤n && n≤32) || n==0x85 || n==0xa0 || n==0x1680 || (0x2000≤n && n≤0x200a) ||
    n==0x2028 || n==0x2029 || n==0x202f || n==0x205f || n==0x3000

def strip (cs : List Char) : List Char :=
  ((cs.dropWhile isSpace).reverse.dropWhile isSpace).reverse

def splitSign : List Char → Bool × List Char
  | '-' :: cs => (true, cs)
  | '+' :: cs => (false, cs)
  | cs => (false, cs)

/-- The exponent part: nothing, or `E` with an optionally signed number. -/
def readExponent : List Char → Option Int
  | [] => some 0
  | c :: cs =>
    if c = 'e' ∨ c = 'E' then
      let (neg, ds) := splitSign cs
      if ds≠[] ∧ ds.all Char.isDigit then some (signed neg (ofDigitChars ds)) else none
    else none

def splitFraction : List Char → List Char × List Char
  | '.' :: cs => cs.span Char.isDigit
  | cs => ([], cs)

def readFinite (neg : Bool) (cs : List Char) : Option Decimal :=
  let (whole, rest) := cs.span Char.isDigit
  let (frac, rest) := splitFraction rest
  if whole=[] ∧ frac=[] then none
  else (readExponent rest).map fun e =>
    .finite neg (ofDigitChars (whole++frac)) (e-frac.length)

def readSpecial (neg : Bool) (cs : List Char) : Option Decimal :=
  match cs.map Char.toLower with
  | ['i', 'n', 'f'] | ['i', 'n', 'f', 'i', 'n', 'i', 't', 'y'] => some (.infinity neg)
  | 'n' :: 'a' :: 'n' :: ds =>
    if ds.all Char.isDigit then some (.nan neg false (ofDigitChars ds)) else none
  | 's' :: 'n' :: 'a' :: 'n' :: ds =>
    if ds.all Char.isDigit then some (.nan neg true (ofDigitChars ds)) else none
  | _ => none

def readChars (cs : List Char) : Option Decimal :=
  let (neg, body) := splitSign cs
  (readFinite neg body).or (readSpecial neg body)

/-- `Decimal(text)`; `none` is `InvalidOperation`. -/
def ofText (text : String) : Option Decimal :=
  readChars ((strip text.toList).filter (· ≠ '_'))

def exponentChars (power : Int) : List Char :=
  if power=0 then []
  else 'E' :: (if power<0 then '-' else '+') :: digitChars power.natAbs

theorem readExponent_chars (power : Int) : readExponent (exponentChars power) = some power := by
  by_cases h0 : power=0
  · simp [exponentChars, readExponent, h0]
  · have hne := digitChars_ne_nil power.natAbs
    have hall : (digitChars power.natAbs).all Char.isDigit = true :=
      List.all_eq_true.mpr fun c hc => digitChars_digit hc
    by_cases hneg : power<0
    · have hs : signed true power.natAbs = power := by
        rw [signed, if_pos rfl, Int.ofNat_natAbs_of_nonpos hneg.le, neg_neg]
      simp [exponentChars, h0, hneg, readExponent, splitSign, hne, hall,
        ofDigitChars_digitChars, hs]
    · have hs : signed false power.natAbs = power := by
        rw [signed, if_neg (by simp), Int.natAbs_of_nonneg (not_lt.mp hneg)]
      simp [exponentChars, h0, hneg, readExponent, splitSign, hne, hall,
        ofDigitChars_digitChars, hs]

theorem exponentChars_stops (power : Int) : Stops (exponentChars power) := by
  by_cases h0 : power=0 <;> simp [exponentChars, h0, Stops]

/-- Digits, a point and digits are read back as one coefficient. -/
theorem readFinite_point (neg : Bool) (whole frac : List Char) (power : Int)
    (hw : ∀ c∈whole, c.isDigit = true) (hf : ∀ c∈frac, c.isDigit = true) (hne : whole≠[]) :
    readFinite neg (whole ++ '.' :: (frac++exponentChars power)) =
      some (.finite neg (ofDigitChars (whole++frac)) (power-frac.length)) := by
  have h1 := span_digits whole ('.' :: (frac++exponentChars power)) hw (stops_cons rfl)
  have h2 := span_digits frac (exponentChars power) hf (exponentChars_stops power)
  simp only [readFinite, h1, splitFraction, h2, hne, false_and, if_false, readExponent_chars,
    Option.map_some]

theorem readFinite_whole (neg : Bool) (whole : List Char) (power : Int)
    (hw : ∀ c∈whole, c.isDigit = true) (hne : whole≠[]) :
    readFinite neg (whole++exponentChars power) =
      some (.finite neg (ofDigitChars whole) power) := by
  have h1 := span_digits whole (exponentChars power) hw (exponentChars_stops power)
  have h2 : splitFraction (exponentChars power) = ([], exponentChars power) := by
    by_cases h0 : power=0 <;> simp [exponentChars, h0, splitFraction]
  simp only [readFinite, h1, h2, hne, false_and, if_false, readExponent_chars, Option.map_some,
    List.append_nil, List.length_nil, Nat.cast_zero, sub_zero]

/-- Unsigned part of the text: digits, the point and the exponent. -/
def bodyChars (coeff : Nat) (exp : Int) : List Char :=
  let ds := digitChars coeff
  let left := exp+ds.length
  let dot := if exp≤0 ∧ -6<left then left else 1
  (if dot≤0 then '0' :: '.' :: (List.replicate (-dot).toNat '0'++ds)
    else if ds.length≤dot then ds++List.replicate (dot.toNat-ds.length) '0'
    else ds.take dot.toNat ++ '.' :: ds.drop dot.toNat)++exponentChars (left-dot)

theorem finiteChars_eq (neg : Bool) (coeff : Nat) (exp : Int) :
    finiteChars neg coeff exp = (if neg then ['-'] else [])++bodyChars coeff exp := rfl

theorem readFinite_bodyChars (neg : Bool) (coeff : Nat) (exp : Int) :
    readFinite neg (bodyChars coeff exp) = some (.finite neg coeff exp) := by
  have hds := ofDigitChars_digitChars coeff
  have hdig : ∀ c∈digitChars coeff, c.isDigit = true := fun c hc => digitChars_digit hc
  have hlen : 0<(digitChars coeff).length :=
    List.length_pos_iff.mpr (digitChars_ne_nil coeff)
  unfold bodyChars
  extract_lets ds left dot
  change ofDigitChars ds = coeff at hds
  change ∀ c∈ds, c.isDigit = true at hdig
  change 0<ds.length at hlen
  have hdot : dot = left ∧ exp≤0 ∨ dot = 1 := by
    simp only [dot]
    split_ifs with h
    · exact Or.inl ⟨rfl, h.1⟩
    · exact Or.inr rfl
  have hleft : left = exp+ds.length := rfl
  clear_value left dot ds
  split_ifs with h1 h2
  · have hzero : left-dot = 0 := by omega
    have hread := readFinite_point neg ['0'] (List.replicate (-dot).toNat '0'++ds) (left-dot)
      (by simp) (by
        intro c hc
        rcases List.mem_append.mp hc with hz | hd
        · rw [List.eq_of_mem_replicate hz]; rfl
        · exact hdig c hd) (by simp)
    simp only [List.append_assoc, List.cons_append, List.nil_append] at hread ⊢
    have hcoeff : ofDigitChars ('0' :: (List.replicate (-dot).toNat '0'++ds)) = coeff := by
      have := ofDigitChars_zeros ((-dot).toNat+1) ds
      rwa [List.replicate_succ, List.cons_append, hds] at this
    rw [hread, hcoeff]
    congr 2
    simp only [List.length_append, List.length_replicate]
    omega
  · have hd : dot.toNat-ds.length = 0 := by omega
    rw [hd, List.replicate_zero, List.append_nil,
      readFinite_whole neg ds (left-dot) hdig (List.length_pos_iff.mp hlen), hds]
    congr 2
    omega
  · have hread := readFinite_point neg (ds.take dot.toNat) (ds.drop dot.toNat) (left-dot)
      (fun c hc => hdig c (List.mem_of_mem_take hc)) (fun c hc => hdig c (List.mem_of_mem_drop hc))
      (List.ne_nil_of_length_pos (by rw [List.length_take]; omega))
    rw [List.append_assoc, List.cons_append, hread, List.take_append_drop, hds]
    congr 2
    simp only [List.length_drop]
    omega

theorem bodyChars_head (coeff : Nat) (exp : Int) :
    ∃ c cs, bodyChars coeff exp = c :: cs ∧ c.isDigit = true := by
  have hdig : ∀ c∈digitChars coeff, c.isDigit = true := fun c hc => digitChars_digit hc
  obtain ⟨d, ds, hd⟩ := List.exists_cons_of_ne_nil (digitChars_ne_nil coeff)
  have hdd : d.isDigit = true := hdig d (by simp [hd])
  unfold bodyChars
  extract_lets ds' left dot
  rw [show ds' = d :: ds from hd]
  split_ifs with h1 h2
  · exact ⟨'0', _, rfl, rfl⟩
  · exact ⟨d, _, rfl, hdd⟩
  · obtain ⟨k, hk⟩ : ∃ k, dot.toNat = k+1 := ⟨dot.toNat-1, by omega⟩
    rw [hk, List.take_succ_cons]
    exact ⟨d, _, rfl, hdd⟩

/-- The characters `str` writes for a finite number. -/
def plainChar (c : Char) : Bool := c.isDigit || c == '.' || c == 'E' || c == '-' || c == '+'

theorem exponentChars_plain (power : Int) : ∀ c∈exponentChars power, plainChar c = true := by
  intro c hc
  unfold exponentChars at hc
  split_ifs at hc with h0 hneg
  · simp at hc
  all_goals
    rcases List.mem_cons.mp hc with rfl | hc
    · rfl
    · rcases List.mem_cons.mp hc with rfl | hc
      · rfl
      · simp [plainChar, digitChars_digit hc]

theorem bodyChars_plain (coeff : Nat) (exp : Int) :
    ∀ c∈bodyChars coeff exp, plainChar c = true := by
  have hdig : ∀ c∈digitChars coeff, plainChar c = true := fun c hc => by
    simp [plainChar, digitChars_digit hc]
  have hzero (k : Nat) : ∀ c∈List.replicate k '0', plainChar c = true := fun c hc => by
    rw [List.eq_of_mem_replicate hc]; rfl
  intro c hc
  unfold bodyChars at hc
  extract_lets ds left dot at hc
  rcases List.mem_append.mp hc with hc | hc
  · split_ifs at hc with h1 h2
    · rcases List.mem_cons.mp hc with rfl | hc
      · rfl
      · rcases List.mem_cons.mp hc with rfl | hc
        · rfl
        · exact (List.mem_append.mp hc).elim (hzero _ c) (hdig c)
    · exact (List.mem_append.mp hc).elim (hdig c) (hzero _ c)
    · rcases List.mem_append.mp hc with hc | hc
      · exact hdig c (List.mem_of_mem_take hc)
      · rcases List.mem_cons.mp hc with rfl | hc
        · rfl
        · exact hdig c (List.mem_of_mem_drop hc)
  · exact exponentChars_plain _ c hc

theorem plainChar_not_space {c : Char} (h : plainChar c = true) : isSpace c = false ∧ c ≠ '_' := by
  simp only [plainChar, Bool.or_eq_true, beq_iff_eq] at h
  rcases h with (((h | rfl) | rfl) | rfl) | rfl
  · simp only [Char.isDigit, Bool.and_eq_true, decide_eq_true_eq] at h
    have h1 : 48 ≤ c.toNat := h.1
    have h2 : c.toNat≤57 := h.2
    refine ⟨?_, ?_⟩
    · simp only [isSpace, Bool.or_eq_false_iff, Bool.and_eq_false_iff, decide_eq_false_iff_not,
        beq_eq_false_iff_ne]
      omega
    · rintro rfl
      exact absurd h2 (by decide)
  all_goals decide

/-- Nothing is stripped from a text without blanks and underscores. -/
theorem strip_solid (cs : List Char) (h : ∀ c∈cs, isSpace c = false ∧ c ≠ '_') :
    (strip cs).filter (· ≠ '_') = cs := by
  have hdrop (xs : List Char) (hx : ∀ c∈xs, isSpace c = false ∧ c ≠ '_') :
      xs.dropWhile isSpace = xs := by
    cases xs with
    | nil => rfl
    | cons c xs => simp [(hx c (by simp)).1]
  have hs : strip cs = cs := by
    rw [strip, hdrop cs h, hdrop cs.reverse (fun c hc => h c (List.mem_reverse.mp hc)),
      List.reverse_reverse]
  rw [hs, List.filter_eq_self]
  intro c hc
  simpa using (h c hc).2

/-- A text that begins with a digit has no sign. -/
theorem splitSign_digit {c : Char} (h : c.isDigit = true) (cs : List Char) :
    splitSign (c :: cs) = (false, c :: cs) := by
  unfold splitSign
  split
  · rename_i heq; cases heq; exact absurd h (by decide)
  · rename_i heq; cases heq; exact absurd h (by decide)
  · rfl

/-- `Decimal(str(d))` is `d` again: a stored amount text is exact. -/
theorem ofText_str (neg : Bool) (coeff : Nat) (exp : Int) :
    ofText (str (.finite neg coeff exp)) = some (.finite neg coeff exp) := by
  have hplain : ∀ c∈finiteChars neg coeff exp, plainChar c = true := by
    intro c hc
    rw [finiteChars_eq] at hc
    rcases List.mem_append.mp hc with hc | hc
    · cases neg with
      | false => simp at hc
      | true => simp at hc; subst hc; rfl
    · exact bodyChars_plain coeff exp c hc
  simp only [ofText, str, String.toList_ofList]
  rw [strip_solid _ fun c hc => plainChar_not_space (hplain c hc), readChars, finiteChars_eq]
  obtain ⟨c, cs, hbody, hc⟩ := bodyChars_head coeff exp
  have hsplit : splitSign (bodyChars coeff exp) = (false, bodyChars coeff exp) :=
    hbody ▸ splitSign_digit hc cs
  have hread := readFinite_bodyChars
  cases neg with
  | false => simp [hsplit, hread]
  | true => simp [splitSign, hread]

/-! Exact values. -/

/-- The rational a finite decimal stands for; the special values have none. -/
def toRat : Decimal → ℚ
  | .finite neg coeff exp => signed neg coeff*(10:ℚ)^exp
  | _ => 0

theorem scaled_toRat (neg : Bool) (coeff : Nat) {exp e : Int} (h : e≤exp) :
    (scaled neg coeff exp e:ℚ)*(10:ℚ)^e = toRat (.finite neg coeff exp) := by
  obtain ⟨k, rfl⟩ : ∃ k : Nat, exp = e+k := ⟨(exp-e).toNat, by omega⟩
  have hk : (e+k-e).toNat = k := by omega
  simp only [scaled, toRat, hk, Int.cast_mul, Int.cast_pow, Int.cast_ofNat]
  rw [zpow_add₀ (by norm_num), zpow_natCast]
  ring

/-- The comparison of finite numbers is the comparison of their exact values. -/
theorem gt_finite (n₁ n₂ : Bool) (c₁ c₂ : Nat) (e₁ e₂ : Int) :
    gt (.finite n₁ c₁ e₁) (.finite n₂ c₂ e₂) =
      .ok (decide (toRat (.finite n₂ c₂ e₂)<toRat (.finite n₁ c₁ e₁))) := by
  have h1 := scaled_toRat n₁ c₁ (min_le_left e₁ e₂)
  have h2 := scaled_toRat n₂ c₂ (min_le_right e₁ e₂)
  have hpos : (0:ℚ)<(10:ℚ)^(min e₁ e₂) := zpow_pos (by norm_num) _
  simp only [gt, ← h1, ← h2, mul_lt_mul_iff_left₀ hpos, Int.cast_lt]

/-- A coefficient of at most 28 digits within the exponent range is kept. -/
theorem fix_exact (neg : Bool) {coeff : Nat} {exp : Int} (hc : coeff<10^prec)
    (h0 : coeff≠0) (hlow : etiny≤exp) (hhigh : exp≤etop) :
    fix neg coeff exp = .ok (.finite neg coeff exp) := by
  have hw : width 10 coeff≤prec := width_le_of_lt (by omega) (by decide) hc
  have h1 : ¬ etop<(width 10 coeff:Int)+exp-prec := by omega
  have h2 : ¬ exp < max ((width 10 coeff:Int)+exp-prec) etiny := by omega
  simp [fix, h0, h1, h2]

end Decimal
end TraceGuard
