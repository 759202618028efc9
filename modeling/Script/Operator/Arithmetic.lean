import Script.Heap.Equality
import Script.Number.Bitwise
import Script.Number.Complex

/-!
# Arithmetic of values

The arithmetic operators on numbers. Integers stay integers where the operator allows it, an
integer meets a double as a double, and any number meets a complex number as a complex number.
Truth values take no part in arithmetic.
-/

namespace Script

open Number (Numeric)

-- Powers are those of the core library, whatever other instances are in scope.
attribute [local instance (high)] instPowNat

/-- The number of a value that takes part in arithmetic. -/
def Value.arithmetic? : Value → Option Numeric
  | .int n => some (.int n)
  | .float x => some (.float x.value)
  | .complex z => some (.complex z.re z.im)
  | _ => none

namespace Arithmetic

open Action

/-- An integer as a double. -/
def floatOfInt (n : Int) : Action Float :=
  match Number.floatOfInt? n with
  | some x => pure x
  | none => stop (.overflow "int too large to convert to float")

/-- A number as a complex number. -/
def toComplex : Numeric → Action Number.Complex
  | .int n => return ⟨← floatOfInt n, 0.0⟩
  | .float x => return ⟨x, 0.0⟩
  | .complex re im => return ⟨re, im⟩

/-- An operator that is given for each sort of number. -/
def promote (onInts : Int → Int → Action Value) (onFloats : Float → Float → Action Value)
    (onComplex : Number.Complex → Number.Complex → Action Value) : Numeric → Numeric → Action Value
  | .int a, .int b => onInts a b
  | .int a, .float y => do onFloats (← floatOfInt a) y
  | .float x, .int b => do onFloats x (← floatOfInt b)
  | .float x, .float y => onFloats x y
  | a, b => do
    let left ← toComplex a
    let right ← toComplex b
    onComplex left right

/-- A complex result. -/
def complexResult (z : Number.Complex) : Action Value :=
  newComplex z.re z.im

/-- The sum of two numbers. -/
def add : Numeric → Numeric → Action Value :=
  promote (fun a b => pure (.int (a + b))) (fun x y => newFloat (x + y))
    fun a b => complexResult (a.add b)

/-- The difference of two numbers. -/
def subtract : Numeric → Numeric → Action Value :=
  promote (fun a b => pure (.int (a - b))) (fun x y => newFloat (x - y))
    fun a b => complexResult (a.sub b)

/-- The product of two numbers. -/
def multiply : Numeric → Numeric → Action Value :=
  promote (fun a b => pure (.int (a * b))) (fun x y => newFloat (x * y))
    fun a b => complexResult (a.mul b)

/-- The quotient of two numbers, always a double or complex. -/
def divide (a b : Numeric) : Action Value := do
  if b.isZero then raise .zeroDivisionError "division by zero"
  promote
    (fun a b =>
      match Number.divideInts? a b with
      | some x => newFloat x
      | none => stop (.overflow "integer division result too large for a float"))
    (fun x y => newFloat (x / y))
    (fun a b =>
      match a.div? b with
      | some z => complexResult z
      | none => raise .zeroDivisionError "division by zero")
    a b

/-- The quotient of two real numbers, rounded down. -/
def floorDivide (a b : Numeric) : Action Value := do
  if b.isZero then raise .zeroDivisionError "integer division or modulo by zero"
  promote (fun a b => pure (.int (a.fdiv b)))
    (fun x y => newFloat (Number.floatFloorDivide x y)) (fun a _ => complexResult a) a b

/-- The remainder of two real numbers, with the sign of the second. -/
def remainder (a b : Numeric) : Action Value := do
  if b.isZero then raise .zeroDivisionError "modulo by zero"
  promote (fun a b => pure (.int (a.fmod b)))
    (fun x y => newFloat (Number.floatRemainder x y)) (fun a _ => complexResult a) a b

/-- The double that stands for a result that is not real. -/
def notReal : Value :=
  .float ⟨0.0 / 0.0, 0⟩

/-- A power of complex numbers. -/
def complexPower (base exponent : Number.Complex) : Action Value :=
  match base.pow exponent with
  | .ok power => complexResult power
  | .error .zeroBase => stop .zeroPower
  | .error .tooLarge => stop (.overflow "complex exponentiation")

/-- A power of doubles. -/
def floatPower (base exponent : Float) : Action Value := do
  if base == 0 && exponent < 0 then
    raise .zeroDivisionError "0.0 cannot be raised to a negative power"
  if base < 0 && exponent.isFinite && !Number.isInteger exponent then return notReal
  match Number.floatPower? base exponent with
  | some power => newFloat power
  | none => stop (.overflow "(34, 'Numerical result out of range')")

/-- A power of numbers, always a double or complex. -/
def power : Numeric → Numeric → Action Value :=
  promote
    (fun a b => do
      let base ← floatOfInt a
      let exponent ← floatOfInt b
      floatPower base exponent)
    floatPower complexPower

/-- The most digits of thirty bits that an integer can have. -/
def maxIntegerDigits : Nat := (2 ^ (63 : Nat) - 25) / 4

/-- The most units of any value that fit into memory. -/
def maxUnits : Nat := 2 ^ (32 : Nat)

/-- The most bits of an integer that fit into memory. -/
def maxBits : Nat := 2 ^ (36 : Nat)

/-- The digits of thirty bits of an integer. -/
def integerDigits (n : Int) : Nat :=
  if n = 0 then 0 else n.natAbs.log2 / 30 + 1

/-- The digits of thirty bits that are set aside for an integer other than zero whose bits are
moved to the left. Bits that are not moved by whole digits may spill over into one more. -/
def shiftedDigits (n : Int) (places : Nat) : Nat :=
  integerDigits n + places / 30 + if places % 30 = 0 then 0 else 1

/-- An integer with its bits moved to the left, if it can have so many digits. -/
def shiftLeft (n : Int) (places : Nat) : Action Value :=
  if n = 0 then pure (.int 0)
  else if maxIntegerDigits < shiftedDigits n places then
    stop (.overflow "too many digits in integer")
  else if maxBits < places then stop .memory
  else pure (.int (Number.shiftLeft n places))

end Arithmetic

end Script
