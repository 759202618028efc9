import Script.Number.FloatArithmetic

/-!
# Arithmetic of complex numbers

Products, quotients and powers of pairs of doubles. Small integer powers are computed by repeated
squaring, all others through the polar form.
-/

namespace Script.Number

/-- A complex number as a pair of doubles. -/
structure Complex where
  re : Float
  im : Float

namespace Complex

/-- One. -/
def one : Complex := ⟨1.0, 0.0⟩

/-- The sum. -/
def add (a b : Complex) : Complex := ⟨a.re + b.re, a.im + b.im⟩

/-- The difference. -/
def sub (a b : Complex) : Complex := ⟨a.re - b.re, a.im - b.im⟩

/-- The product. -/
def mul (a b : Complex) : Complex :=
  ⟨a.re * b.re - a.im * b.im, a.re * b.im + a.im * b.re⟩

/-- The quotient, scaled by the larger part of the divisor. Nothing if the divisor is zero. -/
def div? (a b : Complex) : Option Complex :=
  let re := if b.re < 0 then -b.re else b.re
  let im := if b.im < 0 then -b.im else b.im
  if re ≥ im then
    if re == 0 then none
    else
      let ratio := b.im / b.re
      let den := b.re + b.im * ratio
      some ⟨(a.re + a.im * ratio) / den, (a.im - a.re * ratio) / den⟩
  else if im ≥ re then
    let ratio := b.re / b.im
    let den := b.re * ratio + b.im
    some ⟨(a.re * ratio + a.im) / den, (a.im * ratio - a.re) / den⟩
  else some ⟨0.0 / 0.0, 0.0 / 0.0⟩

/-- A part is infinite. -/
def isInfinite (z : Complex) : Bool :=
  z.re.isInf || z.im.isInf

/-- The result times the base to a natural power, by repeated squaring in at most `steps`
steps. -/
def powFrom : Nat → Complex → Complex → Nat → Complex
  | 0, result, _, _ => result
  | steps + 1, result, base, n =>
    if n == 0 then result
    else powFrom steps (if n % 2 == 1 then result.mul base else result) (base.mul base) (n / 2)

/-- A natural power below 128. -/
def powNat (base : Complex) (n : Nat) : Complex :=
  powFrom 7 one base n

/-- Why a power has no value. -/
inductive PowerFault where
  | zeroBase
  | tooLarge

/-- A power whose exponent is an integer. -/
def powInt (base : Complex) (n : Int) : Except PowerFault Complex :=
  if 0 < n then .ok (powNat base n.toNat)
  else
    match div? one (powNat base (-n).toNat) with
    | some quotient => .ok quotient
    | none => .error .zeroBase

/-- A power through the polar form. -/
def powPolar (base exponent : Complex) : Except PowerFault Complex :=
  if exponent.re == 0 && exponent.im == 0 then .ok one
  else if base.re == 0 && base.im == 0 then
    if exponent.im != 0 || exponent.re < 0 then .error .zeroBase else .ok ⟨0.0, 0.0⟩
  else
    let radius := hypotenuse base.re base.im
    let angle := Float.atan2 base.im base.re
    let length := radius.pow exponent.re
    let phase := angle * exponent.re
    let (length, phase) :=
      if exponent.im != 0 then
        (length / (angle * exponent.im).exp, phase + exponent.im * radius.log)
      else (length, phase)
    if phase.isInf then .error .zeroBase
    else .ok ⟨length * phase.cos, length * phase.sin⟩

/-- A power of complex numbers. -/
def pow (base exponent : Complex) : Except PowerFault Complex := do
  let integral := exponent.im == 0 && isInteger exponent.re && absolute exponent.re ≤ 100.0
  let power ←
    match integral, truncate? exponent.re with
    | true, some n => powInt base n
    | _, _ => powPolar base exponent
  if power.isInfinite then throw .tooLarge else return power

end Complex

end Script.Number
