/-!
# Double-precision numbers

A finite double is a sign, an integer below 2^53 and a power of two. `Binary64.ofRatio` gives the
double nearest to a quotient of natural numbers, ties to the even integer, so every conversion
below rounds exactly once.
-/

namespace Script.Number

-- Powers are those of the core library, whatever other instances are in scope.
attribute [local instance (high)] instPowNat

/-- The nearest integer to a quotient; a tie goes to the even neighbour. -/
def roundDiv (num den : Nat) : Nat :=
  let quotient := num / den
  let twice := 2 * (num % den)
  if twice < den || (twice == den && quotient % 2 == 0) then quotient else quotient + 1

/-- A finite double: `significand * 2 ^ exponent`, negated if `negative`. -/
structure Binary64 where
  negative : Bool
  significand : Nat
  exponent : Int
  deriving DecidableEq, Repr

namespace Binary64

/-- The least exponent. -/
def minExponent : Int := -1074

/-- The greatest exponent. -/
def maxExponent : Int := 971

/-- The parts of a double, if it is finite. -/
def ofFloat? (x : Float) : Option Binary64 :=
  let bits := x.toBits.toNat
  let negative := bits / 2 ^ (63 : Nat) == 1
  let biased : Nat := bits / 2 ^ (52 : Nat) % 2 ^ (11 : Nat)
  let fraction := bits % 2 ^ (52 : Nat)
  if biased == 2047 then none
  else if biased == 0 then some ⟨negative, fraction, minExponent⟩
  else some ⟨negative, fraction + 2 ^ (52 : Nat), (biased : Int) - 1075⟩

/-- The double with the given parts; one whose exponent is too large is infinite. -/
def toFloat (x : Binary64) : Float :=
  let magnitude :=
    if x.significand == 0 then 0
    else if maxExponent < x.exponent then 2047 * 2 ^ (52 : Nat)
    else if x.significand < 2 ^ (52 : Nat) then x.significand
    else (x.exponent + 1075).toNat * 2 ^ (52 : Nat) + (x.significand - 2 ^ (52 : Nat))
  Float.ofBits (UInt64.ofNat (magnitude + if x.negative then 2 ^ (63 : Nat) else 0))

/-- The quotient `num / (den * 2 ^ exponent)` rounded to an integer. -/
def scaledRound (num den : Nat) (exponent : Int) : Nat :=
  if 0 ≤ exponent then roundDiv num (den * 2 ^ exponent.toNat)
  else roundDiv (num * 2 ^ (-exponent).toNat) den

/-- The parts of the double nearest to a quotient; the denominator is not zero. The exponent is
chosen so that the integer has 53 bits, unless that would fall below the least exponent. -/
def ofRatio (negative : Bool) (num den : Nat) : Binary64 :=
  if num == 0 then ⟨negative, 0, minExponent⟩
  else
    let guess := (num.log2 : Int) - (den.log2 : Int) - 53
    let exponent :=
      if scaledRound num den (max guess minExponent) < 2 ^ (53 : Nat) then max guess minExponent
      else max (guess + 1) minExponent
    let significand := scaledRound num den exponent
    if significand == 2 ^ (53 : Nat) then ⟨negative, 2 ^ (52 : Nat), exponent + 1⟩
    else ⟨negative, significand, exponent⟩

/-- The number is too large for a double. -/
def isOverflow (x : Binary64) : Bool :=
  x.significand != 0 && maxExponent < x.exponent

end Binary64

/-- The double nearest to a quotient, infinite if it is too large. -/
def floatOfRatio (negative : Bool) (num den : Nat) : Float :=
  (Binary64.ofRatio negative num den).toFloat

/-- The double nearest to `significand * 10 ^ exponent`. Exponents far outside the range of
doubles are decided without computing the power. -/
def floatOfDecimal (negative : Bool) (significand : Nat) (exponent : Int) : Float :=
  let digits : Int := significand.log2 / 3 + 1
  if significand == 0 || digits + exponent < -400 then floatOfRatio negative 0 1
  else if 400 < (significand.log2 : Int) / 4 + exponent then
    (⟨negative, 1, Binary64.maxExponent + 1⟩ : Binary64).toFloat
  else if 0 ≤ exponent then floatOfRatio negative (significand * 10 ^ exponent.toNat) 1
  else floatOfRatio negative significand (10 ^ (-exponent).toNat)

/-- The double nearest to an integer, if it is not too large. -/
def floatOfInt? (n : Int) : Option Float :=
  let parts := Binary64.ofRatio (n < 0) n.natAbs 1
  if parts.isOverflow then none else some parts.toFloat

/-- The integer part of a finite double, toward zero. -/
def truncate? (x : Float) : Option Int :=
  (Binary64.ofFloat? x).map fun parts =>
    let magnitude : Nat :=
      if 0 ≤ parts.exponent then parts.significand * 2 ^ parts.exponent.toNat
      else parts.significand / 2 ^ (-parts.exponent).toNat
    if parts.negative then -(magnitude : Int) else (magnitude : Int)

/-- The double is finite and an integer. -/
def isInteger (x : Float) : Bool :=
  match Binary64.ofFloat? x with
  | none => false
  | some parts =>
    0 ≤ parts.exponent || parts.significand % 2 ^ (-parts.exponent).toNat == 0

/-- An integer compared exactly with a finite double. -/
def compareWithFloat (n : Int) (parts : Binary64) : Ordering :=
  let significand : Int := if parts.negative then -(parts.significand : Int) else parts.significand
  if 0 ≤ parts.exponent then compare n (significand * 2 ^ parts.exponent.toNat)
  else compare (n * 2 ^ (-parts.exponent).toNat) significand

end Script.Number
