import JavaSource.Number.Decimal

/-!
# Literal — Integer

Integer literals: decimal, octal behind `0`, hexadecimal behind `0x`, binary behind `0b`, with
underscores anywhere and an `L` at the end for a long.  Values fit in 64 bits.
-/

namespace JavaSource.Literal

/-- The base of a literal and the digits behind its mark. -/
def baseOf : List Char → Nat × List Char
  | '0' :: 'x' :: cs | '0' :: 'X' :: cs => (16, cs)
  | '0' :: 'b' :: cs | '0' :: 'B' :: cs => (2, cs)
  | '0' :: c :: cs                      => (8, c :: cs)
  | cs                                  => (10, cs)

/-- Takes a last character of some kind off a text. -/
def cutLast (isCut : Char → Bool) (cs : List Char) : List Char × Bool :=
  if cs.getLast?.any isCut then (cs.dropLast, true) else (cs, false)

/-- The value of an integer literal and whether it is a long. -/
def integer? (text : String) : Option (UInt64 × Bool) := do
  let (body, long) := cutLast (fun c => c == 'l' || c == 'L') text.toList
  let (base, digits) := baseOf (body.filter (· != '_'))
  let value ← Decimal.natural? base digits
  if value < Nat.pow 2 64 then some (value.toUInt64, long) else none

/-- Whether a value can be written in decimal.  The largest one can be only behind a minus. -/
def isDecimal (value : UInt64) (long negated : Bool) : Bool :=
  let limit := if long then Nat.pow 2 63 else Nat.pow 2 31
  value.toNat < limit || (negated && value.toNat == limit)

/-- An integer literal: decimal where that is allowed, hexadecimal beyond. -/
def integerText (value : UInt64) (long negated : Bool) : String :=
  let digits :=
    if isDecimal value long negated then Nat.toDigits 10 value.toNat
    else '0' :: 'x' :: Nat.toDigits 16 value.toNat
  String.ofList (if long then digits ++ ['l'] else digits)

end JavaSource.Literal
