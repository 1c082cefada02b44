import TestSelection.Value

/-!
# The value of a JSON number

A number without point and exponent is an integer if it lies between `-2 ^ 63` and `2 ^ 64 - 1`;
minus zero is not an integer. Any other number is a 64-bit float, found by a fixed procedure: the
leading digits that fit into 64 bits make the significand, and one multiplication or division by
a power of ten scales it. This is exact for short numbers and may miss the nearest float by one
unit for long ones. A number too large for a float has no value.
-/

namespace TestSelection.Json

/-- The parts of a number as written; the digits are numbers below ten. -/
structure Numeral where
  negative : Bool
  whole : List Nat
  fraction : Option (List Nat)
  /-- Whether the exponent is negative, and its digits. -/
  exponent : Option (Bool × List Nat)
deriving DecidableEq, Repr

namespace Numeral

/-- The number that a list of digits spells. -/
def ofDigits (digits : List Nat) : Nat := digits.foldl (fun n d => 10 * n + d) 0

/-- Append a digit if the result fits into 64 bits. -/
def push? (significand digit : Nat) : Option Nat :=
  if significand * 10 + digit < UInt64.size then some (significand * 10 + digit) else none

/-- The significand of the whole digits, and how many digits at the end did not fit. -/
def wholePart (significand : Nat) : List Nat → Nat × Nat
  | [] => (significand, 0)
  | d :: ds =>
    match push? significand d with
    | some n => wholePart n ds
    | none => (significand, (d :: ds).length)

/-- Append the digits of the fraction up to the first that does not fit, and count them. -/
def fractionPart (significand : Nat) : List Nat → Nat × Nat
  | [] => (significand, 0)
  | d :: ds =>
    match push? significand d with
    | some n => let (n, count) := fractionPart n ds; (n, count + 1)
    | none => (significand, 0)

/-- The float `10 ^ n`. -/
def powerOfTen (n : Nat) : Float := Float.ofScientific 1 false n

/-- Scale by a power of ten. A step divides by at most `1e308`; after a few of them nothing is
left. -/
def scale (f : Float) (exponent : Int) : Nat → Option Float
  | 0 => some f
  | steps + 1 =>
    if exponent.natAbs ≤ 308 then
      if 0 ≤ exponent then
        let g := f * powerOfTen exponent.natAbs
        if g.isFinite then some g else none
      else
        some (f / powerOfTen exponent.natAbs)
    else if f == 0.0 then some f
    else if 0 ≤ exponent then none
    else scale (f / powerOfTen 308) (exponent + 308) steps

/-- The exponent as written, kept within 32 bits. -/
def boundedExponent (start : Int) (negative : Bool) (n : Nat) : Int :=
  if negative then max (start - n) Int32.minValue.toInt
  else min (start + n) Int32.maxValue.toInt

/-- The size of the number as a float. -/
def magnitude? (n : Numeral) : Option Float :=
  let (significand, dropped) := wholePart 0 n.whole
  let (significand, places) := fractionPart significand (n.fraction.getD [])
  let start : Int := (dropped : Int) - places
  match n.exponent with
  | none => scale significand.toUInt64.toFloat start 5
  | some (negative, digits) =>
    if Int32.maxValue.toInt < ofDigits digits then
      if significand == 0 || negative then some 0.0 else none
    else
      scale significand.toUInt64.toFloat (boundedExponent start negative (ofDigits digits)) 5

/-- The number as a float, with its sign. -/
def float? (n : Numeral) : Option Value :=
  n.magnitude?.map fun f => .float (if n.negative then -f else f)

/-- The value of the number, unless it is too large. -/
def value? (n : Numeral) : Option Value :=
  if n.fraction.isNone && n.exponent.isNone then
    let size := ofDigits n.whole
    if n.negative then
      if 0 < size && Int64.minValue.toInt ≤ -(size : Int) then some (.int (-size)) else n.float?
    else if size < UInt64.size then some (.int size) else n.float?
  else n.float?

end Numeral

end TestSelection.Json
