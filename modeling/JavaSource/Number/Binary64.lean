/-!
# Number — Binary64

Double precision numbers by their bits.  A finite number is a sign, a mantissa below 2^53 and a
power of two; everything here is computed with integers from these three.
-/

namespace JavaSource

/-- A double precision number: a sign, eleven bits of exponent and 52 bits of fraction. -/
structure Binary64 where
  bits : UInt64
  deriving DecidableEq, Repr, Inhabited

namespace Binary64

/-- Whether the sign bit is set. -/
def isNegative (x : Binary64) : Bool := x.bits.toNat / Nat.pow 2 63 == 1

/-- The exponent as stored. -/
def exponentField (x : Binary64) : Nat := x.bits.toNat / Nat.pow 2 52 % Nat.pow 2 11

/-- The fraction as stored. -/
def fractionField (x : Binary64) : Nat := x.bits.toNat % Nat.pow 2 52

/-- Whether it is a number and not infinite. -/
def isFinite (x : Binary64) : Bool := x.exponentField != 2047

/-- Whether it is no number. -/
def isNaN (x : Binary64) : Bool := x.exponentField == 2047 && x.fractionField != 0

/-- The integer part of the magnitude `mantissa * 2 ^ exponent`. -/
def mantissa (x : Binary64) : Nat :=
  if x.exponentField = 0 then x.fractionField else x.fractionField + Nat.pow 2 52

/-- The power of two in the magnitude `mantissa * 2 ^ exponent`. -/
def exponent (x : Binary64) : Int :=
  max x.exponentField 1 - 1075

/-- Whether it is a zero of either sign. -/
def isZero (x : Binary64) : Bool := x.exponentField == 0 && x.fractionField == 0

/-- Equality of numbers: the zeros are equal, and what is no number equals nothing. -/
def equals (x y : Binary64) : Bool :=
  !x.isNaN && !y.isNaN && (x == y || (x.isZero && y.isZero))

/-- The number with a sign and the other bits given. -/
def ofMagnitude (negative : Bool) (magnitude : Nat) : Binary64 :=
  ⟨((if negative then Nat.pow 2 63 else 0) + magnitude).toUInt64⟩

/-- Infinity. -/
def infinity (negative : Bool) : Binary64 := ofMagnitude negative (2047 * Nat.pow 2 52)

/-- No number. -/
def nan (negative : Bool) : Binary64 := ofMagnitude negative (2047 * Nat.pow 2 52 + Nat.pow 2 51)

/-- Zero. -/
def zero (negative : Bool) : Binary64 := ofMagnitude negative 0

/-- A quotient rounded to the nearest integer, a half to the even neighbour. -/
def roundQuotient (num den : Nat) : Nat :=
  let q := num / den
  let r := num % den
  if 2 * r > den || (2 * r == den && q % 2 == 1) then q + 1 else q

/-- The numerator and the denominator of `num / den / 2 ^ exponent`. -/
def scaled (num den : Nat) (exponent : Int) : Nat × Nat :=
  if exponent ≥ 0 then (num, den * Nat.pow 2 exponent.toNat)
  else (num * Nat.pow 2 (-exponent).toNat, den)

/-- The exponent at which the integer part of `num / den` has 53 digits, or the least there is. -/
def exponentFor (num den : Nat) : Int :=
  let low := max ((num.log2 : Int) - den.log2 - 53) (-1074)
  let (n, d) := scaled num den low
  if n / d < Nat.pow 2 53 then low else low + 1

/-- The number nearest to `num / den`, of two the one with an even mantissa. -/
def round (negative : Bool) (num den : Nat) : Binary64 :=
  if num = 0 then zero negative
  else
    let e := exponentFor num den
    let (n, d) := scaled num den e
    let q := roundQuotient n d
    let magnitude := (e + 1074).toNat * Nat.pow 2 52 + q
    if magnitude ≥ 2047 * Nat.pow 2 52 then infinity negative else ofMagnitude negative magnitude

/-- The magnitude of a finite number as a quotient. -/
def ratio (x : Binary64) : Nat × Nat :=
  if x.exponent ≥ 0 then (x.mantissa * Nat.pow 2 x.exponent.toNat, 1)
  else (x.mantissa, Nat.pow 2 (-x.exponent).toNat)

/-- The power `2 ^ n`.  A negative power is the reciprocal of a positive one, which is infinite
from 1024 on. -/
def powerOfTwo (n : Int) : Binary64 :=
  if n ≥ 1024 then infinity false
  else if n ≤ -1024 then zero false
  else if n ≥ 0 then round false (Nat.pow 2 n.toNat) 1
  else round false 1 (Nat.pow 2 (-n).toNat)

/-- The product of two numbers of which neither is negative. -/
def mul (x y : Binary64) : Binary64 :=
  if x.isNaN || y.isNaN then nan false
  else if !x.isFinite || !y.isFinite then
    if x.isZero || y.isZero then nan false else infinity false
  else
    let (n, d) := x.ratio
    let (n', d') := y.ratio
    round false (n * n') (d * d')

/-- The bits as sixteen hexadecimal digits. -/
def hex (x : Binary64) : String :=
  let digits := Nat.toDigits 16 x.bits.toNat
  String.ofList (List.replicate (16 - digits.length) '0' ++ digits)

end Binary64

end JavaSource
