import JavaSource.Literal.Integer

/-!
# Literal — Floating

Floating literals, decimal or hexadecimal, with underscores anywhere and an `F` or a `D` at the
end.  Only finite values are literals.
-/

namespace JavaSource.Literal

open Text

/-- What has been read of a hexadecimal mantissa. -/
structure Mantissa where
  value : Nat
  /-- How many digits count, leading zeros left out. -/
  significant : Nat
  /-- The power of two that the value is to be multiplied with. -/
  shift : Int

/-- One more digit of a mantissa.  Fifteen significant digits are kept; further ones only move
the point. -/
def Mantissa.push (behindDot : Bool) (m : Mantissa) (digit : Nat) : Mantissa :=
  if m.significant < 15 then
    let value := m.value * 16 + digit
    ⟨value, if value = 0 then m.significant else m.significant + 1,
      if behindDot then m.shift - 4 else m.shift⟩
  else if behindDot then m
  else { m with shift := m.shift + 4 }

/-- Hexadecimal digits on both sides of the dot. -/
def Mantissa.read? (whole fraction : List Char) (shift : Int) : Option Mantissa := do
  let digit? (c : Char) : Option Nat := if isHexDigit c then some (digitValue c) else none
  let whole ← whole.mapM digit?
  let fraction ← fraction.mapM digit?
  return fraction.foldl (push true) (whole.foldl (push false) ⟨0, 0, shift⟩)

/-- Exponents are 32 bits wide. -/
def fitsExponent (n : Int) : Bool := -0x80000000 ≤ n && n < 0x80000000

/-- The value of a hexadecimal literal behind its `0x`: the mantissa as a number, times a power of
two. -/
def hexFloating? (cs : List Char) : Option Binary64 := do
  let (mantissa, some exponentText) := Decimal.cutAt (fun c => c == 'p' || c == 'P') cs | none
  let exponent ← Decimal.integer? exponentText
  if !fitsExponent exponent then none
  let (whole, fraction) := Decimal.cutAt (· == '.') mantissa
  let fraction := fraction.getD []
  if whole.isEmpty && fraction.isEmpty then none
  let m ← Mantissa.read? whole fraction exponent
  return (Binary64.round false m.value 1).mul (.powerOfTwo (m.shift.bmod 0x100000000))

/-- Whether a character ends a floating literal. -/
def isFloatSuffix (c : Char) : Bool := c == 'd' || c == 'D' || c == 'f' || c == 'F'

/-- The value of a floating literal and whether it ends in `D`. -/
def floating? (text : String) : Option (Binary64 × Bool) := do
  let cs := text.toList
  let double := cs.getLast?.any fun c => c == 'd' || c == 'D'
  let body := (cutLast isFloatSuffix cs).1.filter (· != '_')
  let value ← match body with
    | '0' :: 'x' :: hex | '0' :: 'X' :: hex => hexFloating? hex
    | body                                  => Decimal.read? body
  if value.isFinite then some (value, double) else none

end JavaSource.Literal
