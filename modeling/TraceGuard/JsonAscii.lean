import TraceGuard.JsonCodec

/-! With escapes for all that is not printable ASCII, a text has as many bytes as characters. -/
open Digits

namespace Json

def Ascii (cs : List Char) : Prop := ∀ c∈cs, c.toNat < 128

theorem Ascii.append {cs ds : List Char} (h : Ascii cs) (h' : Ascii ds) : Ascii (cs++ds) := by
  intro c hc
  rcases List.mem_append.mp hc with hc | hc
  · exact h c hc
  · exact h' c hc

theorem Ascii.cons {c : Char} {cs : List Char} (hc : c.toNat < 128) (h : Ascii cs) : Ascii (c :: cs) :=
  List.forall_mem_cons.mpr ⟨hc, h⟩

theorem Ascii.nil : Ascii [] := by simp [Ascii]

theorem Ascii.digits {cs : List Char} (h : ∀ c∈cs, c.isDigit = true) : Ascii cs := by
  intro c hc
  have := h c hc
  simp only [Char.isDigit, Bool.and_eq_true, decide_eq_true_eq] at this
  have hle : c.toNat≤ '9'.toNat := this.2
  exact Nat.lt_of_le_of_lt hle (by decide)

theorem hexDigit_ascii (n : Nat) : (hexDigit (n%16)).toNat < 128 := by
  have h : ∀ k < 16, (hexDigit k).toNat < 128 := by decide
  exact h _ (Nat.mod_lt _ (by decide))

theorem unitChars_ascii (n : Nat) : Ascii (unitChars n) :=
  .cons (by decide) (.cons (by decide) (.cons (hexDigit_ascii _) (.cons (hexDigit_ascii _)
    (.cons (hexDigit_ascii _) (.cons (hexDigit_ascii _) .nil)))))

theorem escapeChar_ascii (c : Char) : Ascii (escapeChar true c) := by
  unfold escapeChar
  split
  · rename_i h
    simp only [raw, printable, Bool.not_true, Bool.false_and, Bool.or_false, Bool.and_eq_true,
      decide_eq_true_eq] at h
    exact .cons (by omega) .nil
  repeat' split
  all_goals first | exact unitChars_ascii _ | skip
  all_goals first | exact (unitChars_ascii _).append (unitChars_ascii _) | skip
  all_goals exact .cons (by decide) (.cons (by decide) .nil)

theorem stringChars_ascii (s : List Char) : Ascii (stringChars true s) := by
  refine .cons (by decide) (.append ?_ (.cons (by decide) .nil))
  intro c hc
  obtain ⟨d, -, hd⟩ := List.mem_flatMap.mp hc
  exact escapeChar_ascii d c hd

theorem signed_ascii {p : Prop} [Decidable p] {cs : List Char} (h : Ascii cs) :
    Ascii ((if p then ['-'] else [])++cs) := by
  split
  · exact .cons (by decide) h
  · exact h

theorem digitChars_ascii (n : Nat) : Ascii (digitChars n) := .digits fun _ hc => digitChars_digit hc

theorem exponentChars_ascii (e : Int) : Ascii (exponentChars e) := by
  refine .cons (by decide) (.cons ?_ (.append ?_ (digitChars_ascii _)))
  · split <;> decide
  · intro c hc
    rw [List.eq_of_mem_replicate hc]
    decide

theorem floatChars_ascii (x : Double) : Ascii (floatChars x) := by
  cases x with
  | finite neg units exact =>
    have hparts := Double.parts_proper exact
    refine signed_ascii (.append (.digits hparts.whole) (.append ?_ ?_))
    · split
      · exact .nil
      · exact .cons (by decide) (.digits hparts.frac)
    · split
      · exact .nil
      · exact exponentChars_ascii _
  | infinity neg => exact signed_ascii (by simp [Ascii])
  | nan => simp [floatChars, Ascii]

theorem utf8ByteSize_ascii {cs : List Char} (h : Ascii cs) : (String.ofList cs).utf8ByteSize = cs.length := by
  induction cs with
  | nil => rfl
  | cons c cs ih =>
    obtain ⟨hc, hcs⟩ := List.forall_mem_cons.mp h
    have hsize : c.utf8Size=1 := Char.utf8Size_eq_one_iff.mpr (UInt32.le_iff_toNat_le.mpr (Nat.le_of_lt_succ hc))
    have hsplit : String.ofList (c :: cs) = String.singleton c++String.ofList cs := by
      rw [← String.toList_inj]
      simp
    rw [hsplit, String.utf8ByteSize_append, ih hcs, List.length_cons, Nat.add_comm]
    simp [hsize]

/-! Every value, in a style that escapes and whose gaps are blanks. -/
theorem gap_ascii (style : Style) : Ascii style.gap := by
  intro c hc
  rw [style.blank c hc]
  decide

section
variable {style : Style} (hstyle : style.ascii = true)
include hstyle

mutual
theorem chars_ascii : (v : Json) → Ascii (chars style v)
  | .null => by simp [chars, Ascii]
  | .bool true => by simp [chars, Ascii]
  | .bool false => by simp [chars, Ascii]
  | .int n => signed_ascii (digitChars_ascii _)
  | .float x => floatChars_ascii x
  | .str s => by
    rw [chars, hstyle]
    exact stringChars_ascii _
  | .arr xs => .cons (by decide) (itemsChars_ascii true xs)
  | .obj ms => .cons (by decide) (membersChars_ascii true ms)
theorem itemsChars_ascii : (first : Bool) → (xs : List Json) → Ascii (itemsChars style first xs)
  | _, [] => .cons (by decide) .nil
  | first, x :: xs => by
    refine .append ?_ (.append (chars_ascii x) (itemsChars_ascii false xs))
    split
    · exact .nil
    · exact .cons (by decide) (gap_ascii style)
theorem membersChars_ascii : (first : Bool) → (ms : List (String × Json)) →
    Ascii (membersChars style first ms)
  | _, [] => .cons (by decide) .nil
  | first, (k, v) :: ms => by
    refine .append ?_ (.append ?_ (.append (.cons (by decide) (gap_ascii style))
      (.append (chars_ascii v) (membersChars_ascii false ms))))
    · split
      · exact .nil
      · exact .cons (by decide) (gap_ascii style)
    · rw [hstyle]
      exact stringChars_ascii _
end

end

end Json
