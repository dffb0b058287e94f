import JavaSource.Number.Binary64
import JavaSource.Text.Alphabet

/-!
# Number — Decimal

Numbers in decimal: reading integers in any base and fractions with an exponent, and the
shortest decimal that reads back as a given number.
-/

namespace JavaSource.Decimal

open Text

/-- The value of digits in a base; `none` without digits or if one is none of the base. -/
def digits? (base : Nat) (cs : List Char) : Option Nat :=
  let push (value : Nat) (c : Char) : Option Nat :=
    if digitValue c < base then some (value * base + digitValue c) else none
  if cs.isEmpty then none else cs.foldlM push 0

/-- The value of digits with a plus before them or none. -/
def natural? (base : Nat) : List Char → Option Nat
  | '+' :: cs => digits? base cs
  | cs        => digits? base cs

/-- The value of digits with a sign before them or none. -/
def integer? : List Char → Option Int
  | '-' :: cs => (digits? 10 cs).map fun n => -(n : Int)
  | cs        => (natural? 10 cs).map fun n => (n : Int)

/-- Cuts a text at the first character of a kind, which is dropped; without one there is no second
part. -/
def cutAt (isCut : Char → Bool) (cs : List Char) : List Char × Option (List Char) :=
  (cs.takeWhile (!isCut ·), ((cs.dropWhile (!isCut ·)).tail?))

/-- The number `digits * 10 ^ exponent`. -/
def toBinary64 (negative : Bool) (digits : Nat) (exponent : Int) : Binary64 :=
  let width : Int := (Nat.toDigits 10 digits).length
  if digits = 0 || exponent + width < -330 then .zero negative
  else if exponent + width > 310 then .infinity negative
  else if exponent ≥ 0 then .round negative (digits * Nat.pow 10 exponent.toNat) 1
  else .round negative digits (Nat.pow 10 (-exponent).toNat)

/-- A fraction without a sign: digits, of which some may follow a dot, and an exponent or none. -/
def fraction? (negative : Bool) (cs : List Char) : Option Binary64 := do
  let (mantissa, exponentText) := cutAt (fun c => c == 'e' || c == 'E') cs
  let exponent ← match exponentText with
    | none    => some 0
    | some cs => integer? cs
  let (whole, behindDot) := cutAt (· == '.') mantissa
  let behindDot := behindDot.getD []
  let digits ← digits? 10 (whole ++ behindDot)
  return toBinary64 negative digits (exponent - behindDot.length)

/-- A number by name or in digits, without its sign. -/
def unsigned? (negative : Bool) (cs : List Char) : Option Binary64 :=
  match String.ofList (cs.map Char.toLower) with
  | "nan"              => some (.nan negative)
  | "inf" | "infinity" => some (.infinity negative)
  | _                  => fraction? negative cs

/-- The number that a text stands for. -/
def read? : List Char → Option Binary64
  | '-' :: cs => unsigned? true cs
  | '+' :: cs => unsigned? false cs
  | cs        => unsigned? false cs

/-! ### The shortest decimal

A decimal reads back as a number if it lies between the middles to the neighbouring numbers; the
middles themselves count when the mantissa is even. -/

/-- The middles below and above a positive number, as multiples of `2 ^ exponent / 4`, and the
number itself. -/
structure Interval where
  low : Nat
  mid : Nat
  high : Nat
  closed : Bool

/-- The interval of a number. -/
def Interval.of (x : Binary64) : Interval :=
  let m := 4 * x.mantissa
  ⟨if x.fractionField = 0 && x.exponentField > 1 then m - 1 else m - 2, m, m + 2,
    x.mantissa % 2 == 0⟩

/-- The number of decimal digits before the dot of `num / den`, at least one; less than one for
fractions with zeros behind the dot. -/
def magnitude (num den : Nat) : Int :=
  if num ≥ den then (Nat.toDigits 10 (num / den)).length
  else 1 - ((Nat.toDigits 10 ((den + num - 1) / num - 1)).length : Int)

/-- The decimal `digits * 10 ^ exponent`. -/
structure Shortest where
  digits : Nat
  exponent : Int
  deriving Repr

/-- The nearest multiple of `10 ^ exponent` to a number that lies in its interval.  The number is
`interval.mid * num / den`. -/
def onGrid? (interval : Interval) (num den : Nat) (exponent : Int) : Option Nat :=
  let (num, den) :=
    if exponent ≥ 0 then (num, den * Nat.pow 10 exponent.toNat)
    else (num * Nat.pow 10 (-exponent).toNat, den)
  let holds (k : Nat) : Bool :=
    if interval.closed then interval.low * num ≤ k * den && k * den ≤ interval.high * num
    else interval.low * num < k * den && k * den < interval.high * num
  let below := interval.mid * num / den
  let above := below + 1
  let nearer := interval.mid * num * 2 < (below + above) * den
  if holds below && (nearer || !holds above) then some below
  else if holds above then some above
  else none

/-- Drops zeros at the end. -/
def Shortest.trim (fuel digits : Nat) (exponent : Int) : Shortest :=
  match fuel with
  | 0 => ⟨digits, exponent⟩
  | fuel + 1 =>
    if digits % 10 = 0 && digits ≠ 0 then Shortest.trim fuel (digits / 10) (exponent + 1)
    else ⟨digits, exponent⟩

/-- The decimal of fewest digits that reads back as a positive finite number, of these the
nearest. -/
def shortest (x : Binary64) : Shortest :=
  let interval := Interval.of x
  let e := x.exponent - 2
  let (num, den) := if e ≥ 0 then (Nat.pow 2 e.toNat, 1) else (1, Nat.pow 2 (-e).toNat)
  let top := magnitude (interval.mid * num) den
  let tries := (List.range 17).findSome? fun (n : Nat) =>
    let exponent := top - 1 - n
    (onGrid? interval num den exponent).map fun digits => Shortest.trim 20 digits exponent
  tries.getD ⟨0, 0⟩

/-- The digits of a natural number. -/
def digitsOf (n : Nat) : List Char := Nat.toDigits 10 n

/-- Digits with a dot behind the first and an exponent. -/
def scientific (s : Shortest) : List Char :=
  let ds := digitsOf s.digits
  let exponent := s.exponent + ds.length - 1
  let tail := ds.drop 1
  ds.take 1 ++ (if tail.isEmpty then [] else '.' :: tail) ++ ['e'] ++ (toString exponent).toList

/-- Digits with a dot in place; a whole number ends in `.0`. -/
def positional (s : Shortest) : List Char :=
  let ds := digitsOf s.digits
  if s.exponent ≥ 0 then ds ++ List.replicate s.exponent.toNat '0' ++ ['.', '0']
  else
    let behind := (-s.exponent).toNat
    if ds.length > behind then ds.take (ds.length - behind) ++ ['.'] ++ ds.drop (ds.length - behind)
    else ['0', '.'] ++ List.replicate (behind - ds.length) '0' ++ ds

/-- A number in words: positional from 0.0001 up to 10^16, otherwise with an exponent. -/
def text (x : Binary64) : String :=
  let sign := if x.isNegative && !x.isNaN then "-" else ""
  if x.isNaN then "NaN"
  else if !x.isFinite then sign ++ "inf"
  else if x.isZero then sign ++ "0.0"
  else
    let s := shortest x
    let top := s.exponent + (digitsOf s.digits).length
    sign ++ String.ofList (if top > 16 || top < -3 then scientific s else positional s)

end JavaSource.Decimal
