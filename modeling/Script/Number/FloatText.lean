import Script.Number.Decimal
import Script.Number.Shortest

/-!
# Text of doubles

How a double is written: the shortest digits that read back, positionally while the exponent is
moderate and otherwise with an exponent of at least two digits.
-/

namespace Script.Number

/-- The choices left open by the digits of a number. -/
structure FloatStyle where
  /-- Exponents of the leading digit from here on are written positionally. -/
  positionalFrom : Int
  /-- Exponents of the leading digit below this are written positionally. -/
  positionalBelow : Int
  /-- An integer is written with a point and a zero. -/
  keepsPoint : Bool

/-- Doubles that stand alone: 1.0, 1e+16, 1e-05. -/
def plainStyle : FloatStyle := ⟨-4, 16, true⟩

/-- The parts of a complex number: 1, 1e+16, 1e-05. -/
def partStyle : FloatStyle := ⟨-4, 16, false⟩

/-- The exponent of a number, with its sign and at least two digits. -/
def exponentText (exponent : Int) : List Char :=
  let digits := decimalDigits exponent.natAbs
  let padded := if digits.length < 2 then '0' :: digits else digits
  'e' :: (if exponent < 0 then '-' else '+') :: padded

/-- The digits of a number with the point after `whole` of them, zeros added where needed. -/
def positionalText (keepsPoint : Bool) (digits : List Char) (whole : Int) : List Char :=
  if whole ≤ 0 then '0' :: '.' :: (List.replicate (-whole).toNat '0' ++ digits)
  else if digits.length ≤ whole.toNat then
    digits ++ List.replicate (whole.toNat - digits.length) '0' ++
      (if keepsPoint then ['.', '0'] else [])
  else digits.take whole.toNat ++ '.' :: digits.drop whole.toNat

/-- The digits of a number with the point after the first of them and an exponent. -/
def scientificText (digits : List Char) (exponent : Int) : List Char :=
  match digits with
  | [] => exponentText exponent
  | [first] => first :: exponentText exponent
  | first :: rest => first :: '.' :: rest ++ exponentText exponent

/-- The text of a finite double without its sign. -/
def magnitudeText (style : FloatStyle) (parts : Binary64) : List Char :=
  if parts.significand == 0 then positionalText style.keepsPoint ['0'] 1
  else
    let number := shortest parts.significand parts.exponent
    let digits := decimalDigits number.digits
    let leading := number.exponent + digits.length - 1
    if style.positionalFrom ≤ leading && leading < style.positionalBelow then
      positionalText style.keepsPoint digits (leading + 1)
    else scientificText digits leading

/-- The text of a double. -/
def floatText (style : FloatStyle) (x : Float) : String :=
  match Binary64.ofFloat? x with
  | some parts =>
    String.ofList ((if parts.negative then ['-'] else []) ++ magnitudeText style parts)
  | none => if x.isNaN then "nan" else if x < 0 then "-inf" else "inf"

/-- The text of a complex number. A real part of positive zero is left out; otherwise both parts
stand in parentheses and the second keeps its sign. -/
def complexText (re im : Float) : String :=
  if re == 0 && re.toBits == (0 : Float).toBits then s!"{floatText partStyle im}j"
  else
    let imText := floatText partStyle im
    let sign := if imText.startsWith "-" then "" else "+"
    s!"({floatText partStyle re}{sign}{imText}j)"

end Script.Number
