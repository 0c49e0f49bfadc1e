import Mathlib.Data.List.TakeWhile
import Mathlib.Data.Nat.Log
import TraceGuard.Digits
import TraceGuard.Rounding

/-! IEEE double precision. A finite number is an exact multiple of the smallest subnormal,
`2^-1074`, that 53 bits can hold; every operation is exact and then rounded once. -/
open Rounding Digits

/-- The unit is `2` to minus this. -/
def Double.places : Nat := 1074

/-- From here on a count of units rounds to infinity. -/
def Double.limit : Nat := 2^2098

/-- A count of units that is a finite double. -/
structure Double.Representable (units : Nat) : Prop where
  bits : 2^(units.log2-52)∣units
  range : units < limit

inductive Double where
  | finite (neg : Bool) (units : Nat) (exact : Double.Representable units)
  | infinity (neg : Bool)
  | nan
  deriving DecidableEq

namespace Double

instance (units : Nat) : Decidable (Representable units) :=
  decidable_of_iff (2^(units.log2-52)∣units ∧ units < limit)
    ⟨fun h => ⟨h.1, h.2⟩, fun h => ⟨h.bits, h.range⟩⟩

/-- Spacing of the doubles around `n/d`. -/
def quantum (n d : Nat) : Nat := 2^((n/d).log2-52)

/-- `n/d` rounded to 53 bits, half to even. -/
def roundUnits (n d : Nat) : Nat := halfEven n (d*quantum n d)*quantum n d

theorem quantum_pos (n d : Nat) : 0<quantum n d := Nat.two_pow_pos _

theorem roundUnits_bits (n d : Nat) :
    2^((roundUnits n d).log2-52)∣roundUnits n d := by
  set k := (n/d).log2-52 with hk
  have hquantum : quantum n d = 2^k := rfl
  have hlt : n/(d*2^k) < 2^53 := by
    rw [← Nat.div_div_eq_div_mul, Nat.div_lt_iff_lt_mul (Nat.two_pow_pos k), ← pow_add]
    exact lt_of_lt_of_le Nat.lt_log2_self (Nat.pow_le_pow_right (by omega) (by omega))
  set q := halfEven n (d*2^k) with hq
  have hround : roundUnits n d = q*2^k := by rw [roundUnits, hquantum]
  have hle : q≤2^53 := (halfEven_le _ _).trans hlt
  rw [hround]
  rcases hle.lt_or_eq with hsmall | hfull
  · by_cases h0 : q=0
    · simp [h0]
    · have hne : q*2^k≠0 := by positivity
      have hlog : (q*2^k).log2 < 53+k := by
        rw [Nat.log2_lt hne, pow_add]
        exact Nat.mul_lt_mul_of_pos_right hsmall (Nat.two_pow_pos k)
      exact (pow_dvd_pow 2 (by omega)).trans (Nat.dvd_mul_left _ _)
  · rw [hfull, ← pow_add, Nat.log2_two_pow]
    exact pow_dvd_pow 2 (by omega)

/-- The double nearest to `±n/d·2^-1074`. -/
def ofRatio (neg : Bool) (n d : Nat) : Double :=
  if h : 0<d ∧ roundUnits n d < limit then
    .finite neg (roundUnits n d) ⟨roundUnits_bits n d, h.2⟩
  else .infinity neg

theorem roundUnits_self {units c : Nat} (h : Representable units) (hc : 0 < c) :
    roundUnits (units*c) c = units := by
  have hquantum : quantum (units*c) c = 2^(units.log2-52) := by
    rw [quantum, Nat.mul_div_cancel units hc]
  obtain ⟨q, hq⟩ := h.bits
  set k := units.log2-52
  have hsplit : units*c = q*(c*2^k) := by rw [hq]; ring
  rw [roundUnits, hquantum, hsplit, halfEven_mul q _ (by positivity), Nat.mul_comm, ← hq]

theorem roundUnits_scale (n d k : Nat) (hk : 0<k) : roundUnits (n*k) (d*k) = roundUnits n d := by
  have hquantum : quantum (n*k) (d*k) = quantum n d := by
    rw [quantum, quantum, Nat.mul_div_mul_right n d hk]
  rw [roundUnits, roundUnits, hquantum, Nat.mul_right_comm d k, halfEven_scale _ _ k hk]

/-- Rounding depends on the ratio only. -/
theorem roundUnits_congr {n d n' d' : Nat} (hd : 0<d) (hd' : 0<d') (h : n*d' = n'*d) :
    roundUnits n d = roundUnits n' d' := by
  rw [← roundUnits_scale n d d' hd', ← roundUnits_scale n' d' d hd, h, Nat.mul_comm d d']

/-! Decimal numbers `coeff·10^exp`. -/

def upper (exp : Int) : Nat := 10^exp.toNat
def lower (exp : Int) : Nat := 10^(-exp).toNat

def ofDecimal (neg : Bool) (coeff : Nat) (exp : Int) : Double :=
  ofRatio neg (coeff*upper exp*2^places) (lower exp)

theorem lower_pos (exp : Int) : 0<lower exp := by simp [lower]

theorem representable_zero : Representable 0 := ⟨dvd_zero _, by unfold limit; positivity⟩

theorem ofDecimal_zero (neg : Bool) (exp : Int) :
    ofDecimal neg 0 exp = .finite neg 0 representable_zero := by
  have hround : roundUnits (0*upper exp*2^places) (lower exp) = 0 := by
    simpa using roundUnits_self representable_zero (lower_pos exp)
  have hlt : 0 < limit := representable_zero.range
  simp only [ofDecimal, ofRatio, hround, lower_pos, hlt, true_and, dif_pos]

/-- Trailing zeros of the coefficient can be moved to the exponent. -/
theorem ofDecimal_shift (neg : Bool) (coeff z : Nat) (exp : Int) :
    ofDecimal neg (coeff*10^z) exp = ofDecimal neg coeff (exp+z) := by
  have hten : 10^z*upper exp*lower (exp+z) = upper (exp+z)*lower exp := by
    simp only [upper, lower, ← pow_add]
    congr 1
    omega
  have hround : roundUnits (coeff*10^z*upper exp*2^places) (lower exp) =
      roundUnits (coeff*upper (exp+z)*2^places) (lower (exp+z)) := by
    refine roundUnits_congr (lower_pos _) (lower_pos _) ?_
    calc coeff*10^z*upper exp*2^places*lower (exp+z)
        = coeff*(10^z*upper exp*lower (exp+z))*2^places := by ring
      _ = coeff*upper (exp+z)*2^places*lower exp := by rw [hten]; ring
  simp only [ofDecimal, ofRatio, hround, lower_pos, true_and]

/-! The shortest text. `n·2^-1074` is `n·5^1074·10^-1074`, so it has a decimal expansion. -/

/-- The `p`-digit decimals next to the number, the nearer one first. -/
def candidates (units p : Nat) : List (Nat × Int) :=
  let t := units*5^places
  let cut := (digitChars t).length-p
  let near := halfEven t (10^cut)
  let other := if near=t/10^cut then near+1 else t/10^cut
  [(near, cut-places), (other, cut-places)]

def readsBack (units : Nat) (c : Nat × Int) : Bool :=
  roundUnits (c.1*upper c.2*2^places) (lower c.2) = units

/-- Fewest digits that read back as the number; its whole expansion always does. -/
def shortest (units : Nat) : Nat × Int :=
  (((List.range 17).flatMap fun p => candidates units (p+1)).find? (readsBack units)).getD
    (units*5^places, -places)

theorem readsBack_exact {units : Nat} (h : Representable units) :
    readsBack units (units*5^places, -places) = true := by
  have hup : upper (-places) = 1 := by simp [upper]
  have hlow : lower (-places) = 10^places := by simp [lower]
  have hsplit : units*5^places*1*2^places = units*10^places := by
    rw [Nat.mul_one, Nat.mul_assoc, ← Nat.mul_pow]
  have hpos : 0<10^places := hlow ▸ lower_pos (-places)
  simp only [readsBack, hup, hlow, hsplit, roundUnits_self h hpos, decide_true]

theorem readsBack_shortest {units : Nat} (h : Representable units) :
    readsBack units (shortest units) = true := by
  unfold shortest
  cases hfind : ((List.range 17).flatMap fun p => candidates units (p+1)).find?
      (readsBack units) with
  | none => exact readsBack_exact h
  | some c => exact List.find?_some hfind

theorem ofDecimal_shortest (neg : Bool) {units : Nat} (h : Representable units) :
    ofDecimal neg (shortest units).1 (shortest units).2 = .finite neg units h := by
  have hback := readsBack_shortest h
  simp only [readsBack, decide_eq_true_eq] at hback
  simp only [ofDecimal, ofRatio, hback, lower_pos, true_and, h.range, dif_pos]

/-- Digits without the zeros at their end. -/
def significant (ds : List Char) : List Char := (ds.reverse.dropWhile (· == '0')).reverse

theorem significant_append (ds : List Char) :
    ∃ k, ds = significant ds++List.replicate k '0' := by
  refine ⟨(ds.reverse.takeWhile (· == '0')).length, ?_⟩
  have hzeros : ∀ c∈ds.reverse.takeWhile (· == '0'), c = '0' := fun c hc => by
    simpa using List.mem_takeWhile_imp hc
  have htake : (ds.reverse.takeWhile (· == '0')).reverse =
      List.replicate (ds.reverse.takeWhile (· == '0')).length '0' := by
    rw [List.eq_replicate_of_mem hzeros, List.reverse_replicate, List.length_replicate]
  rw [← htake, significant, ← List.reverse_append, List.takeWhile_append_dropWhile,
    List.reverse_reverse]

/-- Whole part, fraction and exponent of the text of `0.ds·10^point`. -/
def layout (ds : List Char) (point : Int) : List Char × List Char × Option Int :=
  if -4<point ∧ point≤16 then
    if point≤0 then (['0'], List.replicate (-point).toNat '0'++ds, none)
    else if ds.length≤point then (ds++List.replicate (point.toNat-ds.length) '0', ['0'], none)
    else (ds.take point.toNat, ds.drop point.toNat, none)
  else (ds.take 1, ds.drop 1, some (point-1))

/-- The double a text with these parts reads as. -/
def ofParts (neg : Bool) (parts : List Char × List Char × Option Int) : Double :=
  ofDecimal neg (ofDigitChars (parts.1++parts.2.1)) (parts.2.2.getD 0-parts.2.1.length)

theorem ofParts_layout (neg : Bool) (ds : List Char) (point : Int) :
    ofParts neg (layout ds point) = ofDecimal neg (ofDigitChars ds) (point-ds.length) := by
  unfold layout
  split_ifs with hfixed hzero hwhole
  · have hread : ofDigitChars (['0']++(List.replicate (-point).toNat '0'++ds)) = ofDigitChars ds := by
      have := ofDigitChars_zeros ((-point).toNat+1) ds
      rwa [List.replicate_succ, List.cons_append] at this
    simp only [ofParts, hread, Option.getD_none, List.length_append, List.length_replicate]
    congr 1
    omega
  · have hread : ofDigitChars ((ds++List.replicate (point.toNat-ds.length) '0')++['0']) =
        ofDigitChars ds*10^(point.toNat-ds.length+1) := by
      have := ofDigitChars_append_zeros ds (point.toNat-ds.length+1)
      rwa [List.replicate_succ', ← List.append_assoc] at this
    simp only [ofParts, hread, Option.getD_none, List.length_singleton, ofDecimal_shift]
    congr 1
    omega
  · simp only [ofParts, List.take_append_drop, Option.getD_none, List.length_drop]
    congr 1
    omega
  · simp only [ofParts, List.take_append_drop, Option.getD_some, List.length_drop]
    cases ds with
    | nil =>
      change ofDecimal neg 0 _ = ofDecimal neg 0 _
      rw [ofDecimal_zero, ofDecimal_zero]
    | cons d ds =>
      congr 1
      simp only [List.length_cons]
      omega

/-- Parts of the text of a finite number. -/
def parts (units : Nat) : List Char × List Char × Option Int :=
  if units=0 then (['0'], ['0'], none)
  else
    let ds := digitChars (shortest units).1
    layout (significant ds) (ds.length+(shortest units).2)

/-- The shortest text reads back as the number. -/
theorem ofParts_parts (neg : Bool) {units : Nat} (h : Representable units) :
    ofParts neg (parts units) = .finite neg units h := by
  by_cases h0 : units=0
  · subst h0
    exact ofDecimal_zero neg _
  · obtain ⟨k, hk⟩ := significant_append (digitChars (shortest units).1)
    have hvalue : (shortest units).1 =
        ofDigitChars (significant (digitChars (shortest units).1))*10^k := by
      rw [← ofDigitChars_append_zeros, ← hk, ofDigitChars_digitChars]
    have hlen := congrArg List.length hk
    rw [List.length_append, List.length_replicate] at hlen
    rw [← ofDecimal_shortest neg h, hvalue, ofDecimal_shift, parts, if_neg h0, ofParts_layout]
    congr 1
    omega

/-- Parts that are written as one number: digits, no leading zero before a digit, and a
fraction or an exponent. -/
structure Proper (p : List Char × List Char × Option Int) : Prop where
  whole : ∀ c∈p.1, c.isDigit = true
  nonempty : p.1≠[]
  leading : p.1.head? = some '0' → p.1.length≤1
  frac : ∀ c∈p.2.1, c.isDigit = true
  marked : p.2.1≠[] ∨ p.2.2≠none

theorem layout_proper {ds : List Char} {point : Int} (hd : ∀ c∈ds, c.isDigit = true)
    (hne : ds≠[]) (hlead : ds.head?≠some '0') : Proper (layout ds point) := by
  have hzero (k : Nat) : ∀ c∈List.replicate k '0', c.isDigit = true := fun c hc => by
    rw [List.eq_of_mem_replicate hc]; rfl
  obtain ⟨d, tail, rfl⟩ := List.exists_cons_of_ne_nil hne
  unfold layout
  split_ifs with hfixed hpoint hwhole
  · refine ⟨by simp, by simp, by simp, fun c hc => ?_, by simp⟩
    exact (List.mem_append.mp hc).elim (hzero _ c) (hd c)
  · refine ⟨fun c hc => ?_, by simp, fun h => absurd h hlead, by simp, by simp⟩
    exact (List.mem_append.mp hc).elim (hd c) (hzero _ c)
  · obtain ⟨k, hk⟩ : ∃ k, point.toNat=k+1 := ⟨point.toNat-1, by omega⟩
    refine ⟨fun c hc => hd c (List.mem_of_mem_take hc), by simp [hk], fun h => ?_,
      fun c hc => hd c (List.mem_of_mem_drop hc), Or.inl (List.ne_nil_of_length_pos ?_)⟩
    · exact absurd (by simpa [hk] using h) hlead
    · rw [List.length_drop]
      omega
  · exact ⟨fun c hc => hd c (List.mem_of_mem_take hc), by simp, by simp,
      fun c hc => hd c (List.mem_of_mem_drop hc), Or.inr (by simp)⟩

theorem shortest_ne_zero {units : Nat} (h : Representable units) (h0 : units≠0) :
    (shortest units).1≠0 := by
  intro hz
  have hback := ofDecimal_shortest false h
  rw [hz, ofDecimal_zero] at hback
  exact h0 (Double.finite.inj hback).2.symm

theorem parts_proper {units : Nat} (h : Representable units) : Proper (parts units) := by
  by_cases h0 : units=0
  · rw [parts, if_pos h0]
    exact ⟨by simp, by simp, by simp, by simp, by simp⟩
  rw [parts, if_neg h0]
  have hc := shortest_ne_zero h h0
  obtain ⟨k, hk⟩ := significant_append (digitChars (shortest units).1)
  have hdig : ∀ c∈digitChars (shortest units).1, c.isDigit = true := fun c hc => digitChars_digit hc
  have hne : significant (digitChars (shortest units).1)≠[] := by
    intro hnil
    rw [hnil, List.nil_append] at hk
    have hvalue := ofDigitChars_digitChars (shortest units).1
    rw [hk, ofDigitChars_replicate] at hvalue
    exact hc hvalue.symm
  refine layout_proper (fun c hmem => hdig c ?_) hne fun hlead => hc (digitChars_zero_head ?_)
  · rw [hk]
    exact List.mem_append_left _ hmem
  · rw [hk, List.head?_append_of_ne_nil _ hne]
    exact hlead

/-! Arithmetic. -/

def isFinite : Double → Bool
  | .finite .. => true
  | _ => false

def signedUnits (neg : Bool) (units : Nat) : Int := if neg then -(units:Int) else units

/-- The double nearest to a signed count of units; `neg` is the sign of a zero. -/
def ofUnits (neg : Bool) (n : Int) : Double := ofRatio (if n=0 then neg else n<0) n.natAbs 1

def add : Double → Double → Double
  | .nan, _ | _, .nan => .nan
  | .infinity s, .infinity t => if s=t then .infinity s else .nan
  | .infinity s, .finite .. | .finite .., .infinity s => .infinity s
  | .finite n₁ u₁ _, .finite n₂ u₂ _ => ofUnits (n₁ && n₂) (signedUnits n₁ u₁+signedUnits n₂ u₂)

/-- The double nearest to an integer, if there is one. -/
def ofInt (n : Int) : Option Double :=
  match ofUnits false (n*2^places) with
  | .infinity _ => none
  | x => some x

end Double
