import TraceGuard.ExecutionAuthority
import TraceGuard.FieldComplete

/-! Amounts of payments. The text of a number that is not below zero is a decimal amount, so every
payment that a strict grant allows has one. -/
namespace TraceGuard
open Digits

namespace Decimal

theorem digit_solid {c : Char} (h : c.isDigit = true) : isSpace c = false ∧ c ≠ '_' :=
  plainChar_not_space (by simp [plainChar, h])

/-- The exponent of a float's text reads back. -/
theorem readExponent_float (e : Int) : readExponent (Json.exponentChars e) = some e := by
  have hdigits : (List.replicate (2-(digitChars e.natAbs).length) '0'++digitChars e.natAbs).all
      Char.isDigit = true := by
    rw [List.all_append, List.all_eq_true.mpr fun c hc => digitChars_digit hc, Bool.and_true]
    exact List.all_eq_true.mpr fun c hc => by rw [List.eq_of_mem_replicate hc]; rfl
  have hne : List.replicate (2-(digitChars e.natAbs).length) '0'++digitChars e.natAbs≠[] :=
    List.append_ne_nil_of_right_ne_nil _ (digitChars_ne_nil _)
  have hvalue : ofDigitChars (List.replicate (2-(digitChars e.natAbs).length) '0'++
      digitChars e.natAbs) = e.natAbs := by
    rw [ofDigitChars_zeros, ofDigitChars_digitChars]
  by_cases hneg : e<0
  · have hs : signed true e.natAbs = e := by
      rw [signed, if_pos rfl, Int.ofNat_natAbs_of_nonpos hneg.le, neg_neg]
    simp only [Json.exponentChars, hneg, if_true, readExponent, splitSign, true_or, hne, ne_eq,
      not_false_eq_true, hdigits, and_self, hvalue, hs]
  · have hs : signed false e.natAbs = e := by
      rw [signed, if_neg (by simp), Int.natAbs_of_nonneg (not_lt.mp hneg)]
    simp only [Json.exponentChars, hneg, if_false, readExponent, splitSign, true_or, if_true, hne,
      ne_eq, not_false_eq_true, hdigits, and_self, hvalue, hs]

/-- The parts of a float's text, without its sign, are a finite decimal. -/
theorem readFinite_parts (neg : Bool) {p : List Char × List Char × Option Int} (h : Double.Proper p) :
    readFinite neg (Json.partsChars p) =
      some (.finite neg (ofDigitChars (p.1++p.2.1)) (p.2.2.getD 0-p.2.1.length)) := by
  obtain ⟨whole, frac, exp⟩ := p
  obtain ⟨hwhole, hne, _, hfrac, hmarked⟩ := h
  simp only at hwhole hne hfrac hmarked
  have htail : Stops (Json.tailChars [] exp) := by
    cases exp with
    | none => exact stops_nil
    | some e => exact stops_cons rfl
  have hexp : readExponent (Json.tailChars [] exp) = some (exp.getD 0) := by
    cases exp with
    | none => rfl
    | some e => exact readExponent_float e
  have hstops : Stops (Json.tailChars frac exp) := by
    simpa using Json.tailChars_stops hmarked []
  have hspan := span_digits whole _ hwhole hstops
  by_cases hf : frac=[]
  · subst hf
    have hsplit : splitFraction (Json.tailChars [] exp) = ([], Json.tailChars [] exp) := by
      cases exp <;> rfl
    simp only [readFinite, Json.partsChars, hspan, hsplit, hne, false_and, if_false, hexp,
      Option.map_some]
  · have hpoint : Json.tailChars frac exp = '.' :: (frac++Json.tailChars [] exp) := by
      simp [Json.tailChars, hf]
    have hsplit : splitFraction (Json.tailChars frac exp) = (frac, Json.tailChars [] exp) := by
      rw [hpoint]
      exact span_digits frac _ hfrac htail
    simp only [readFinite, Json.partsChars, hspan, hsplit, hne, false_and, if_false, hexp,
      Option.map_some]

theorem partsChars_solid {p : List Char × List Char × Option Int} (h : Double.Proper p) :
    ∀ c∈Json.partsChars p, isSpace c = false ∧ c ≠ '_' := by
  obtain ⟨whole, frac, exp⟩ := p
  obtain ⟨hwhole, _, _, hfrac, _⟩ := h
  intro c hc
  simp only [Json.partsChars, Json.tailChars, List.mem_append] at hc
  rcases hc with hc | hc | hc
  · exact digit_solid (hwhole c hc)
  · split at hc
    · simp at hc
    · rcases List.mem_cons.mp hc with rfl | hc
      · decide
      · exact digit_solid (hfrac c hc)
  · cases exp with
    | none => simp at hc
    | some e =>
      simp only [Json.exponentChars, List.mem_cons, List.mem_append] at hc
      rcases hc with rfl | rfl | hc | hc
      · decide
      · split <;> decide
      · rw [List.eq_of_mem_replicate hc]
        decide
      · exact digit_solid (digitChars_digit hc)

/-- The text of a finite float is a finite decimal with its sign. -/
theorem ofText_float (neg : Bool) {units : Nat} (exact : Double.Representable units) :
    ofText (String.ofList (Json.floatChars (.finite neg units exact))) =
      some (.finite neg (ofDigitChars ((Double.parts units).1++(Double.parts units).2.1))
        ((Double.parts units).2.2.getD 0-(Double.parts units).2.1.length)) := by
  have hp := Double.parts_proper exact
  have hread := readFinite_parts neg hp
  obtain ⟨c, cs, hwhole⟩ := List.exists_cons_of_ne_nil hp.nonempty
  have hc : c.isDigit = true := hp.whole c (by simp [hwhole])
  have hsolid : ∀ c∈Json.floatChars (.finite neg units exact), isSpace c = false ∧ c ≠ '_' := by
    intro c hc
    rcases List.mem_append.mp hc with hc | hc
    · cases neg with
      | false => simp at hc
      | true =>
        obtain rfl : c = '-' := by simpa using hc
        decide
    · exact partsChars_solid hp c hc
  have hbody : Json.partsChars (Double.parts units) =
      c :: (cs++Json.tailChars (Double.parts units).2.1 (Double.parts units).2.2) := by
    rw [Json.partsChars, hwhole, List.cons_append]
  have hsplit : splitSign (Json.partsChars (Double.parts units)) =
      (false, Json.partsChars (Double.parts units)) := hbody ▸ splitSign_digit hc _
  rw [ofText, String.toList_ofList, strip_solid _ hsolid, readChars]
  cases neg with
  | false => simp [Json.floatChars, hsplit, hread]
  | true => simp [Json.floatChars, splitSign, hread]

/-- The text of a number from zero on is a decimal. -/
theorem ofText_int {n : Int} (h : 0≤n) :
    ofText (String.ofList (Json.intChars n)) = some (.finite false n.toNat 0) := by
  have hchars : Json.intChars n = digitChars n.toNat := by
    have habs : n.natAbs=n.toNat := by omega
    simp [Json.intChars, not_lt.mpr h, habs]
  have hdig : ∀ c∈digitChars n.toNat, c.isDigit = true := fun c hc => digitChars_digit hc
  obtain ⟨c, cs, hcs⟩ := List.exists_cons_of_ne_nil (digitChars_ne_nil n.toNat)
  have hsplit : splitSign (digitChars n.toNat) = (false, digitChars n.toNat) := by
    rw [hcs]
    exact splitSign_digit (hdig c (by simp [hcs])) cs
  have hread := readFinite_whole false (digitChars n.toNat) 0 hdig (digitChars_ne_nil _)
  rw [show exponentChars 0 = [] from rfl, List.append_nil, ofDigitChars_digitChars] at hread
  rw [ofText, String.toList_ofList, hchars, strip_solid _ fun c hc => digit_solid (hdig c hc),
    readChars, hsplit]
  simp [hread]

end Decimal

namespace Authority
open Json

theorem zero_le_int {n : Int} : PyNumber.zero.le (.int n) = true ↔ 0≤n := by
  have hpow : (0:Int)<2^Double.places := by positivity
  show decide ((0:Int)*2^Double.places ≤ n*2^Double.places) = true ↔ 0≤n
  rw [decide_eq_true_eq, Int.mul_le_mul_iff_of_pos_right hpow]

theorem zero_le_float {neg : Bool} {units : Nat} (exact : Double.Representable units) :
    PyNumber.zero.le (.float (.finite neg units exact)) = true ↔ 0≤Double.signedUnits neg units := by
  show decide ((0:Int)*2^Double.places ≤ Double.signedUnits neg units) = true ↔ _
  rw [decide_eq_true_eq, zero_mul]

/-- A valid amount has a text that is a decimal from zero on. -/
theorem validAmount_text {value : Json} (h : validAmount value = .ok true) :
    ∃ amount, (numberText value).bind Decimal.ofText = some amount ∧
      amount.isFinite = true ∧ amount.isNegative = false := by
  obtain ⟨hbool, n, hvalue, hfinite, hle⟩ := validAmount_ok h
  cases value with
  | int i =>
    obtain rfl := Option.some.inj hvalue
    refine ⟨.finite false i.toNat 0, ?_, rfl, rfl⟩
    rw [numberText, Option.bind_some]
    exact Decimal.ofText_int (zero_le_int.mp hle)
  | float x =>
    obtain rfl := Option.some.inj hvalue
    cases x with
    | finite neg units exact =>
      have hunits := (zero_le_float exact).mp hle
      have htext := Decimal.ofText_float neg exact
      rw [numberText, Option.bind_some, htext]
      refine ⟨_, rfl, rfl, ?_⟩
      cases neg with
      | false => rfl
      | true =>
        have hzero : units=0 := by
          have hneg : Double.signedUnits true units = -(units:Int) := rfl
          omega
        subst hzero
        rfl
    | infinity neg => cases hfinite
    | nan => cases hfinite
  | bool b => exact absurd rfl (hbool b)
  | _ => cases hvalue

/-- A strict payment that passes has a valid amount. -/
theorem payment_passed {platform : Platform} {goal : String} {call : ToolCall}
    {authority : TaskAuthority} (hs : authority.enforcementMode=.strict) (hp : call.toolName∈paymentTools)
    (hpayment : payment call = Check.pass)
    (hfields : strictFields platform goal call authority = Check.pass) :
    ∃ value, call.arguments.get "amount" = some value ∧ validAmount value = .ok true := by
  have hknown : unresolvedAmount call authority = false := by
    unfold strictFields at hfields
    rw [if_pos hs] at hfields
    obtain ⟨effect, _, hfields⟩ := Raising.bind_ok hfields
    by_contra hopen
    by_cases hungranted : ungrantedFields call authority effect≠[]
    · rw [if_pos hungranted] at hfields
      cases hfields
    · rw [if_neg hungranted, if_pos (Bool.not_eq_false _ ▸ hopen)] at hfields
      cases hfields
  cases hamount : amountOf call with
  | none => simp [unresolvedAmount, hp, hamount] at hknown
  | some value =>
    rw [payment, if_pos hp, hamount] at hpayment
    obtain ⟨valid, hvalid, hpayment⟩ := Raising.bind_ok hpayment
    cases valid with
    | false => cases hpayment
    | true =>
      refine ⟨value, ?_, hvalid⟩
      unfold amountOf at hamount
      split at hamount
      · cases hamount
      · cases hamount
      · rename_i hget
        rw [hget, hamount]

end Authority

theorem payment_effect {call : ToolCall} (h : call.toolName∈paymentTools) :
    toolEffect call = .ok .mutate := by
  unfold toolEffect
  simp only [paymentTools, List.mem_cons, List.not_mem_nil, or_false] at h
  rcases h with h | h <;> rw [h] <;> rfl

open Authority in
/-- A payment that a strict grant allows has an amount. -/
theorem paymentAmount_allowed {compiled : CompiledAuthority} {platform : Platform} {crypto : Crypto}
    {goal : String} {action : ActionRequest} {observations : List Observation}
    {previousCalls : List ToolCall} {schemas : Schemas} {schema : Schema} {normalized : ToolCall}
    {authority : TaskAuthority} (hs : authority.enforcementMode=.strict)
    (h : compiled.Allowed platform crypto goal (ExecutionAuthority.toolCall action) observations
      previousCalls schemas schema normalized authority) :
    ∃ amount, paymentAmount action = .ok amount := by
  unfold paymentAmount
  by_cases hp : action.operation∈paymentTools
  · have heffect : toolEffect (ExecutionAuthority.toolCall action) = .ok .mutate := payment_effect hp
    have hform := h.form
    rw [CompiledAuthority.readForm_effect heffect (by decide)] at hform
    obtain rfl := Option.some.inj (Except.ok.inj hform)
    have hchecks := firstDenial_pass.mp h.pass
    have hpaid : payment (ExecutionAuthority.toolCall action) = Check.pass :=
      hchecks _ (by simp [checks])
    have hfields : strictFields platform goal (ExecutionAuthority.toolCall action) authority =
        Check.pass := hchecks _ (by simp [checks])
    obtain ⟨value, hget, hvalid⟩ := payment_passed hs hp hpaid hfields
    obtain ⟨amount, htext, hfinite, hnegative⟩ := validAmount_text hvalid
    have hget : action.arguments.get "amount" = some value := hget
    rw [if_pos hp, hget, Option.bind_some, htext]
    simp only [hfinite, hnegative, Bool.not_false, Bool.and_self, if_true]
    exact ⟨amount, rfl⟩
  · rw [if_neg hp]
    exact ⟨_, rfl⟩

end TraceGuard
