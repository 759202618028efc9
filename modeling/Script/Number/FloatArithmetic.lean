import Script.Number.Binary64

/-!
# Arithmetic of doubles

Division with remainder, powers and the length of a vector. The remainder is computed exactly and
has the sign of the divisor; the quotient is the matching integer.
-/

namespace Script.Number

-- Powers are those of the core library, whatever other instances are in scope.
attribute [local instance (high)] instPowNat

/-- The sign bit of a double. -/
def isNegative (x : Float) : Bool :=
  x.toBits.toNat / 2 ^ (63 : Nat) == 1

/-- A zero with the sign of a double. -/
def zeroLike (x : Float) : Float :=
  if isNegative x then -0.0 else 0.0

/-- The exact remainder of two doubles, with the sign of the first. The second is not zero. -/
def truncatedRemainder (x y : Float) : Float :=
  match Binary64.ofFloat? x, Binary64.ofFloat? y with
  | some a, some b =>
    let exponent := min a.exponent b.exponent
    let num := a.significand * 2 ^ (a.exponent - exponent).toNat
    let den := b.significand * 2 ^ (b.exponent - exponent).toNat
    let rest := num % den
    if 0 ≤ exponent then floatOfRatio a.negative (rest * 2 ^ exponent.toNat) 1
    else floatOfRatio a.negative rest (2 ^ (-exponent).toNat)
  | some _, none => if y.isNaN then y else x
  | none, _ => 0.0 / 0.0

/-- The remainder of two doubles, with the sign of the second. -/
def floatRemainder (x y : Float) : Float :=
  let rest := truncatedRemainder x y
  if rest != 0 then (if (y < 0) != (rest < 0) then rest + y else rest) else zeroLike y

/-- The quotient of two doubles, rounded down to an integer. -/
def floatFloorDivide (x y : Float) : Float :=
  let rest := truncatedRemainder x y
  let quotient := (x - rest) / y
  let adjusted := if rest != 0 && (y < 0) != (rest < 0) then quotient - 1.0 else quotient
  if adjusted != 0 then
    let floor := adjusted.floor
    if adjusted - floor > 0.5 then floor + 1.0 else floor
  else zeroLike (x / y)

/-- The double is an odd integer. -/
def isOddInteger (x : Float) : Bool :=
  match isInteger x, truncate? x with
  | true, some n => n % 2 != 0
  | _, _ => false

/-- The magnitude of a double. -/
def absolute (x : Float) : Float :=
  if isNegative x then -x else x

/-- A power of doubles, where the base is not zero if the exponent is negative, and not negative
if the exponent is no integer. Nothing if the power is too large. -/
def floatPower? (x y : Float) : Option Float :=
  if y == 0 then some 1.0
  else if x.isNaN then some x
  else if y.isNaN then some (if x == 1.0 then 1.0 else y)
  else if y.isInf then
    let magnitude := absolute x
    if magnitude == 1.0 then some 1.0
    else if (y > 0) == (magnitude > 1.0) then some (absolute y)
    else some 0.0
  else if x.isInf then
    if y > 0 then some (if isOddInteger y then x else absolute x)
    else some (if isOddInteger y then zeroLike x else 0.0)
  else if x == 0 then some (if isOddInteger y then x else 0.0)
  else
    let negate := x < 0 && isOddInteger y
    let magnitude := absolute x
    if magnitude == 1.0 then some (if negate then -1.0 else 1.0)
    else
      let power := magnitude.pow y
      if power.isInf then none else some (if negate then -power else power)

/-- A power of two whose exponent lies from -1022 to 1023. -/
def powerOfTwo (exponent : Int) : Float :=
  Float.ofBits (((1023 + exponent).toNat * 2 ^ (52 : Nat)).toUInt64)

/-- The length of a vector with the given magnitudes, `short` not above `long`, whose squares are
doubles too. The root of the rounded sum of squares is corrected by one step of Newton's method,
with the error of the root computed from its excess over one of the magnitudes. -/
def correctedLength (long short : Float) : Float :=
  let root := (long * long + short * short).sqrt
  let error :=
    if root ≤ 2.0 * short then
      let excess := root - short
      long * (2.0 * excess - long) + (excess - 2.0 * (long - short)) * excess
    else
      let excess := root - long
      2.0 * excess * (long - 2.0 * short) + ((4.0 * excess - short) * short + excess * excess)
  root - error / (2.0 * root)

/-- The length of a vector with the given finite magnitudes, `short` not above `long`. Magnitudes
whose squares would leave the range of doubles are scaled first; one that is below half a unit in
the last place of the other only takes part in the rounding. -/
def scaledLength (long short : Float) : Float :=
  let scale := powerOfTwo 600
  let negligible := powerOfTwo (-54)
  if long > powerOfTwo 511 then
    if short ≤ long * negligible then long + short
    else correctedLength (long / scale) (short / scale) * scale
  else if short < powerOfTwo (-459) then
    if long ≥ short / negligible then long + short
    else correctedLength (long * scale) (short * scale) / scale
  else if short ≤ long * negligible then long + short
  else correctedLength long short

/-- The length of a vector. An infinite part makes it infinite, whatever the other part is. -/
def hypotenuse (x y : Float) : Float :=
  if x.isInf || y.isInf then 1.0 / 0.0
  else if x.isNaN || y.isNaN then 0.0 / 0.0
  else
    let first := absolute x
    let second := absolute y
    if first < second then scaledLength second first else scaledLength first second

/-- The quotient of two integers, rounded to a double. The second is not zero. Nothing if the
quotient is too large. -/
def divideInts? (a b : Int) : Option Float :=
  let parts := Binary64.ofRatio ((a < 0) != (b < 0)) a.natAbs b.natAbs
  if parts.isOverflow then none else some parts.toFloat

end Script.Number
