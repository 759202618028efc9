import Script.Number.Binary64

/-!
# Shortest decimals

The decimal with the fewest digits that reads back as a given double, and of those the nearest to
it. The reals that round to the double form an interval; its ends belong to it if the double's
integer is even. For each number of digits, only the double's two neighbours on that decimal grid
have to be tested.
-/

namespace Script.Number

-- Powers are those of the core library, whatever other instances are in scope.
attribute [local instance (high)] instPowNat

/-- The number `digits * 10 ^ exponent`. -/
structure ShortDecimal where
  digits : Nat
  exponent : Int
  deriving DecidableEq, Repr

/-- The same number without trailing zeros, of which at most `steps` are removed. -/
def ShortDecimal.strip : Nat → ShortDecimal → ShortDecimal
  | 0, number => number
  | steps + 1, number =>
    if number.digits != 0 && number.digits % 10 == 0 then
      strip steps ⟨number.digits / 10, number.exponent + 1⟩
    else number

/-- The reals that round to a double, in quarters of its last place, scaled so that a decimal of
exponent `grid` is an integer multiple of `unit`. -/
structure RoundingInterval where
  low : Nat
  value : Nat
  high : Nat
  unit : Nat
  closed : Bool

/-- The interval of a double that is not zero, on a decimal grid. -/
def RoundingInterval.of (significand : Nat) (exponent grid : Int) : RoundingInterval :=
  let below := if significand == 2 ^ (52 : Nat) && Binary64.minExponent < exponent then 1 else 2
  let twos := exponent - 2
  let binary := if 0 ≤ twos then 2 ^ twos.toNat else 1
  let binaryDen := if 0 ≤ twos then 1 else 2 ^ (-twos).toNat
  let decimal := if 0 ≤ grid then 10 ^ grid.toNat else 1
  let decimalDen := if 0 ≤ grid then 1 else 10 ^ (-grid).toNat
  let scale := binary * decimalDen
  { low := (4 * significand - below) * scale
    value := 4 * significand * scale
    high := (4 * significand + 2) * scale
    unit := decimal * binaryDen
    closed := significand % 2 == 0 }

/-- The point of the grid lies in the interval. -/
def RoundingInterval.holds (interval : RoundingInterval) (point : Nat) : Bool :=
  let scaled := point * interval.unit
  if interval.closed then interval.low ≤ scaled && scaled ≤ interval.high
  else interval.low < scaled && scaled < interval.high

/-- The point of the grid nearest to the double among its two neighbours that lie in the
interval; of two equally near the even one. -/
def RoundingInterval.nearest? (interval : RoundingInterval) : Option Nat :=
  let below := interval.value / interval.unit
  let twice := 2 * (interval.value % interval.unit)
  match interval.holds below, interval.holds (below + 1) with
  | true, true =>
    if twice < interval.unit || (twice == interval.unit && below % 2 == 0) then some below
    else some (below + 1)
  | true, false => some below
  | false, true => some (below + 1)
  | false, false => none

/-- The exponent of the leading decimal digit of a double that is not zero. -/
def leadingExponent (significand : Nat) (exponent : Int) : Int :=
  let atLeast (power : Int) : Bool :=
    let interval := RoundingInterval.of significand exponent power
    interval.unit ≤ interval.value
  let guess := ((significand.log2 : Int) + exponent) * 30103 / 100000
  if atLeast (guess + 1) then guess + 1
  else if atLeast guess then guess
  else guess - 1

/-- The first grid, from `count` digits on, that has a point in the interval. Seventeen digits
always suffice. -/
def shortestFrom (significand : Nat) (exponent leading : Int) : Nat → Nat → ShortDecimal
  | 0, _ => ⟨significand, exponent⟩
  | steps + 1, count =>
    let grid := leading - (count : Int) + 1
    match (RoundingInterval.of significand exponent grid).nearest? with
    | some digits => ⟨digits, grid⟩
    | none => shortestFrom significand exponent leading steps (count + 1)

/-- The shortest decimal that reads back as a double that is not zero. -/
def shortest (significand : Nat) (exponent : Int) : ShortDecimal :=
  (shortestFrom significand exponent (leadingExponent significand exponent) 17 1).strip 20

end Script.Number
