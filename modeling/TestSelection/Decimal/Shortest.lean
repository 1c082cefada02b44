/-!
# The shortest decimal that reads back

A positive finite binary number `m * 2 ^ q` owns the interval of reals that round to it, the two
ends included when `m` is even. Among the decimals in that interval, `shortest` takes those with
the fewest digits, and of these the one nearest to the number.

For each count of digits it is enough to look at the two neighbours of the number on the grid of
decimals with that many digits: if any point of the grid lies in the interval, one of the two
does. Seventeen digits always suffice for 64-bit numbers.

The second half of the module writes the digits down. Where positional notation ends is the
choice of a `FloatLayout`.
-/

namespace TestSelection

/-! ## Digits -/

/-- The number `coefficient * 10 ^ exponent`. -/
structure Decimal where
  coefficient : Nat
  exponent : Int
deriving Repr, DecidableEq

namespace Decimal

/-- The number of decimal digits of `n`; zero has one digit. -/
def digitCount (n : Nat) : Nat := (Nat.toDigits 10 n).length

/-- Search for the least `j` with `den ≤ num * 10 ^ j`, from `j` on, for at most the given number
of steps. -/
def leadingZeros (num den : Nat) (j : Nat) : Nat → Nat
  | 0 => j
  | steps + 1 => if den ≤ num * Nat.pow 10 j then j else leadingZeros num den (j + 1) steps

/-- The decimal exponent of the first digit of `num / den`. -/
def leadingExponent (num den : Nat) : Int :=
  if den ≤ num then digitCount (num / den) - 1 else -(leadingZeros num den 1 400 : Int)

/-- Multiply `num / den` by `10 ^ e`, as a pair again. -/
def scale (num den : Nat) (e : Int) : Nat × Nat :=
  if 0 ≤ e then (num * Nat.pow 10 e.toNat, den) else (num, den * Nat.pow 10 (-e).toNat)

/-- A number with the interval that it owns, as fractions of one denominator. -/
structure Interval where
  low : Nat
  value : Nat
  high : Nat
  den : Nat
  closed : Bool

/-- The interval of `m * 2 ^ q`. At a power of two the gap below is half the gap above, unless the
exponent is the least one. -/
def Interval.ofBinary (m : Nat) (q : Int) (narrowBelow : Bool) : Interval :=
  let low := if narrowBelow then 4 * m - 1 else 4 * m - 2
  let up := Nat.pow 2 (q - 2).toNat
  { low := low * up, value := 4 * m * up, high := (4 * m + 2) * up,
    den := Nat.pow 2 (2 - q).toNat, closed := m % 2 == 0 }

/-- The best decimal with digits down to `10 ^ e`, if one lies in the interval. -/
def Interval.onGrid? (i : Interval) (e : Int) : Option Decimal :=
  let (value, den) := scale i.value i.den (-e)
  let (low, _) := scale i.low i.den (-e)
  let (high, _) := scale i.high i.den (-e)
  let inside (c : Nat) : Bool :=
    if i.closed then low ≤ c * den && c * den ≤ high else low < c * den && c * den < high
  let below := value / den
  let above := below + 1
  let toBelow := value - below * den
  let toAbove := above * den - value
  let nearer := if toBelow < toAbove || (toBelow == toAbove && below % 2 == 0) then below else above
  let other := if nearer == below then above else below
  if inside nearer then some ⟨nearer, e⟩ else if inside other then some ⟨other, e⟩ else none

/-- Try the grids of `digits`, `digits + 1`, … digits. -/
def Interval.search (i : Interval) (top : Int) (digits : Nat) : Nat → Decimal
  | 0 => ⟨i.value / i.den, 0⟩
  | steps + 1 =>
    match i.onGrid? (top - digits + 1) with
    | some d => d
    | none => i.search top (digits + 1) steps

/-- Drop the zeros at the end of the coefficient. -/
def trimZeros (d : Decimal) : Nat → Decimal
  | 0 => d
  | steps + 1 =>
    if d.coefficient != 0 && d.coefficient % 10 == 0 then
      trimZeros ⟨d.coefficient / 10, d.exponent + 1⟩ steps
    else d

/-- The shortest decimal that rounds to `m * 2 ^ q`, for `0 < m`. -/
def shortest (m : Nat) (q : Int) (narrowBelow : Bool) : Decimal :=
  let i := Interval.ofBinary m q narrowBelow
  (i.search (leadingExponent i.value i.den) 1 17).trimZeros 20

end Decimal

/-! ## Layout -/

/-- Which numbers are written without an exponent, by the exponent of their first digit. A bound
that is absent does not limit. -/
structure FloatLayout where
  least : Option Int
  greatest : Option Int

/-- Numbers from `1e-5` up to below `1e16` are written without an exponent. -/
def FloatLayout.scientific : FloatLayout := ⟨some (-5), some 15⟩

/-- No number is written with an exponent. -/
def FloatLayout.positional : FloatLayout := ⟨none, none⟩

namespace Decimal

/-- Write the digits with a point and at least one digit on each side of it. -/
def positionalText (d : Decimal) : String :=
  let digits := Nat.toDigits 10 d.coefficient
  if 0 ≤ d.exponent then
    String.ofList (digits ++ List.replicate d.exponent.toNat '0') ++ ".0"
  else
    let places := (-d.exponent).toNat
    let digits := List.replicate (places + 1 - digits.length) '0' ++ digits
    String.ofList (digits.take (digits.length - places)) ++ "." ++
      String.ofList (digits.drop (digits.length - places))

/-- Write one digit before the point, the exponent with its sign, and no point if nothing would
follow it. -/
def scientificText (d : Decimal) : String :=
  let digits := Nat.toDigits 10 d.coefficient
  let exponent := d.exponent + (digits.length - 1 : Nat)
  let fraction := if digits.length ≤ 1 then "" else "." ++ String.ofList (digits.drop 1)
  let sign := if exponent < 0 then "-" else "+"
  String.ofList (digits.take 1) ++ fraction ++ "e" ++ sign ++ toString exponent.natAbs

/-- Write the digits as the layout says. -/
def text (layout : FloatLayout) (d : Decimal) : String :=
  let exponent := d.exponent + (digitCount d.coefficient - 1 : Nat)
  if layout.least.all (· ≤ exponent) && layout.greatest.all (exponent ≤ ·) then d.positionalText
  else d.scientificText

end Decimal

/-- Write a 64-bit number with the fewest digits that read back. -/
def FloatLayout.write (layout : FloatLayout) (x : Float) : String :=
  let bits := x.toBits.toNat
  let sign := if bits >>> 63 == 1 then "-" else ""
  let biased : Nat := (bits >>> 52) % (1 <<< 11)
  let fraction := bits % (1 <<< 52)
  if biased == 2047 then
    if fraction == 0 then sign ++ "inf" else "NaN"
  else if biased == 0 && fraction == 0 then
    sign ++ "0.0"
  else if biased == 0 then
    sign ++ (Decimal.shortest fraction (-1074) false).text layout
  else
    let narrowBelow := fraction == 0 && biased != 1
    let mantissa := (1 <<< 52) + fraction
    sign ++ (Decimal.shortest mantissa ((biased : Int) - 1075) narrowBelow).text layout

end TestSelection
