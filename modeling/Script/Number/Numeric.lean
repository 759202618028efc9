import Script.Number.Binary64

/-!
# Comparing numbers

Integers, doubles and complex numbers are compared by the numbers they stand for, without
rounding one to the other.
-/

namespace Script.Number

/-- A number of one of the three sorts. -/
inductive Numeric where
  | int (value : Int)
  | float (value : Float)
  | complex (re im : Float)

namespace Numeric

/-- How an integer compares with a double, if the double is a number. -/
def compareIntFloat? (n : Int) (x : Float) : Option Ordering :=
  match Binary64.ofFloat? x with
  | some parts => some (compareWithFloat n parts)
  | none => if x.isNaN then none else if x < 0 then some .gt else some .lt

/-- How two doubles compare, if both are numbers. -/
def compareFloats? (x y : Float) : Option Ordering :=
  if x < y then some .lt else if y < x then some .gt else if x == y then some .eq else none

/-- How two numbers compare. Complex numbers are not ordered. -/
def compare? : Numeric → Numeric → Option Ordering
  | .int a, .int b => some (compare a b)
  | .int a, .float y => compareIntFloat? a y
  | .float x, .int b => (compareIntFloat? b x).map Ordering.swap
  | .float x, .float y => compareFloats? x y
  | _, _ => none

/-- The numbers are the same. -/
def equal : Numeric → Numeric → Bool
  | .complex re im, .complex re' im' => re == re' && im == im'
  | .complex re im, other => im == 0 && compare? (.float re) other == some .eq
  | other, .complex re im => im == 0 && compare? other (.float re) == some .eq
  | a, b => compare? a b == some .eq

/-- The number is zero. -/
def isZero : Numeric → Bool
  | .int n => n == 0
  | .float x => x == 0
  | .complex re im => re == 0 && im == 0

end Numeric

end Script.Number
