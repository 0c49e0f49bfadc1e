import Mathlib.Data.Nat.Digits.Lemmas

/-! Round half to even at a fixed number of digits, for any base. A value is a
coefficient times a power of the base; only the coefficient is rounded here. -/
namespace Rounding

/-- The integer nearest to `n/d`, the even one of two equally near. -/
def halfEven (n d : Nat) : Nat :=
  let q := n/d
  let r := n%d
  if 2*r<d then q else if d<2*r then q+1 else if q%2=0 then q else q+1

theorem halfEven_le (n d : Nat) : halfEven n d≤n/d+1 := by
  simp only [halfEven]
  split_ifs <;> omega

/-- Only the quotient counts, not how it is written. -/
theorem halfEven_scale (n d k : Nat) (hk : 0<k) : halfEven (n*k) (d*k) = halfEven n d := by
  have hlt (x y : Nat) : 2*(x*k)<y*k ↔ 2*x<y := by
    rw [← Nat.mul_assoc]
    exact Nat.mul_lt_mul_right hk
  have hgt (x y : Nat) : y*k<2*(x*k) ↔ y<2*x := by
    rw [← Nat.mul_assoc]
    exact Nat.mul_lt_mul_right hk
  simp only [halfEven, Nat.mul_div_mul_right n d hk, Nat.mul_mod_mul_right, hlt, hgt]

/-- Digits of `n` in base `b`; zero is written with one digit. -/
def width (b n : Nat) : Nat := if n=0 then 1 else (Nat.digits b n).length

theorem halfEven_mul (q d : Nat) (hd : 0<d) : halfEven (q*d) d = q := by
  simp [halfEven, Nat.mul_div_cancel q hd, hd]

theorem halfEven_one (n : Nat) : halfEven n 1 = n := by
  simpa using halfEven_mul n 1 (by omega)

theorem width_le_of_lt {b n k : Nat} (hb : 1<b) (hk : 0<k) (h : n<b^k) : width b n≤k := by
  unfold width
  split
  · exact hk
  · exact (Nat.digits_length_le_iff hb n).mpr h

end Rounding
