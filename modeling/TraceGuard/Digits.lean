import Mathlib.Algebra.GroupWithZero.Nat
import Mathlib.Data.List.Basic
import Mathlib.Data.List.TakeDrop

/-! Decimal digits as characters: writing a number, reading it back, and reading a run of
digits off the front of a text. -/
namespace Digits

def digitChars (n : Nat) : List Char := Nat.toDigits 10 n

def ofDigitChars (ds : List Char) : Nat := Nat.ofDigitChars 10 ds 0

theorem digitChars_digit {n : Nat} {c : Char} (h : c∈digitChars n) : c.isDigit = true :=
  Nat.isDigit_of_mem_toDigits (by omega) (by omega) h

theorem digitChars_ne_nil (n : Nat) : digitChars n≠[] := Nat.toDigits_ne_nil

theorem ofDigitChars_digitChars (n : Nat) : ofDigitChars (digitChars n) = n :=
  Nat.ofDigitChars_ten_toDigits

theorem ofDigitChars_append (ds es : List Char) :
    ofDigitChars (ds++es) = ofDigitChars ds*10^es.length+ofDigitChars es := by
  simp only [ofDigitChars, Nat.ofDigitChars_append]
  rw [Nat.ofDigitChars_eq_ofDigitChars_zero, Nat.mul_comm]

theorem ofDigitChars_replicate (k : Nat) : ofDigitChars (List.replicate k '0') = 0 := by
  simp [ofDigitChars]

/-- Leading zeros change no value. -/
theorem ofDigitChars_zeros (k : Nat) (ds : List Char) :
    ofDigitChars (List.replicate k '0'++ds) = ofDigitChars ds := by
  rw [ofDigitChars_append, ofDigitChars_replicate, Nat.zero_mul, Nat.zero_add]

/-- Trailing zeros multiply by a power of ten. -/
theorem ofDigitChars_append_zeros (ds : List Char) (k : Nat) :
    ofDigitChars (ds++List.replicate k '0') = ofDigitChars ds*10^k := by
  rw [ofDigitChars_append, ofDigitChars_replicate, List.length_replicate, Nat.add_zero]

/-- Only zero is written with a leading zero. -/
theorem digitChars_zero_head {n : Nat} (h : (digitChars n).head? = some '0') : n = 0 := by
  induction n using Nat.strongRecOn with
  | ind n ih =>
    by_cases hn : n<10
    · rw [digitChars, Nat.toDigits_of_lt_base hn] at h
      simpa using h
    · have hsplit : digitChars n = digitChars (n/10)++[Nat.digitChar (n%10)] :=
        Nat.toDigits_of_base_le (by omega) (by omega)
      rw [hsplit, List.head?_append_of_ne_nil _ (digitChars_ne_nil _)] at h
      have := ih (n/10) (by omega) h
      omega

theorem digitChars_zero_length {n : Nat} (h : (digitChars n).head? = some '0') :
    (digitChars n).length = 1 := by
  rw [digitChars_zero_head h]
  rfl

/-- A text that does not go on with a digit. -/
def Stops (rest : List Char) : Prop := ∀ c∈rest.head?, c.isDigit = false

theorem stops_nil : Stops [] := by simp [Stops]

theorem stops_cons {c : Char} {rest : List Char} (h : c.isDigit = false) : Stops (c :: rest) := by
  simpa [Stops] using h

/-- Reading digits stops at the first character that is none. -/
theorem span_digits (ds rest : List Char) (hd : ∀ c∈ds, c.isDigit = true) (hr : Stops rest) :
    (ds++rest).span Char.isDigit = (ds, rest) := by
  have hrest : rest.takeWhile Char.isDigit = [] ∧ rest.dropWhile Char.isDigit = rest := by
    cases rest with
    | nil => simp
    | cons c cs =>
      have hc := hr c (by simp)
      simp [hc]
  rw [List.span_eq_takeWhile_dropWhile, List.takeWhile_append_of_pos hd,
    List.dropWhile_append_of_pos hd, hrest.1, hrest.2, List.append_nil]

end Digits
