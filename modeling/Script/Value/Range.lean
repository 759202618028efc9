/-!
# Ranges

A range stands for the integers from a start up to, and without, a stop, in steps of a fixed
size, which may be negative. Its length, its members and its equality are computed without
listing them.
-/

namespace Script

-- Powers are those of the core library, whatever other instances are in scope.
attribute [local instance (high)] instPowNat

/-- The integers `start + i * step` that lie before `stop` in the direction of the step. -/
structure Range where
  start : Int
  stop : Int
  step : Int
  step_ne_zero : step ≠ 0
  deriving DecidableEq

namespace Range

/-- The number of members. -/
def length (range : Range) : Nat :=
  if 0 < range.step then ((range.stop - range.start + range.step - 1) / range.step).toNat
  else ((range.start - range.stop - range.step - 1) / (-range.step)).toNat

/-- The member at a place, counted from zero. -/
def get (range : Range) (place : Nat) : Int :=
  range.start + place * range.step

/-- The members, in order. -/
def toList (range : Range) : List Int :=
  (List.range range.length).map range.get

/-- The number is a member. -/
def contains (range : Range) (n : Int) : Bool :=
  (if 0 < range.step then range.start ≤ n && n < range.stop
   else range.stop < n && n ≤ range.start) &&
    (n - range.start) % range.step == 0

/-- The ranges have the same members in the same order. -/
def sameMembers (range other : Range) : Bool :=
  range.length == other.length &&
    (range.length == 0 ||
      (range.start == other.start && (range.length == 1 || range.step == other.step)))

/-- The most members that are ever counted. -/
def maxLength : Nat := 2 ^ (63 : Nat) - 1

end Range

end Script
