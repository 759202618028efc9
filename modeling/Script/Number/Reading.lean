import Script.Number.Binary64
import Script.Number.Decimal
import Script.Text.Numeral

/-!
# Reading numbers

Integers and doubles from text that has no blanks at its ends. Digits of every script count by
their value, and a single underscore may stand between two digits.
-/

namespace Script.Number

/-- A text with the digits of all scripts replaced by those of ASCII. -/
def asciiDigits (text : List Char) : List Char :=
  text.map fun c =>
    match Text.decimalValue? c with
    | some value => digitChar value
    | none => c

/-- The sign at the front of a text, and the text after it. -/
def cutSign : List Char → Bool × List Char
  | '-' :: rest => (true, rest)
  | '+' :: rest => (false, rest)
  | text => (false, text)

/-- The value of a digit in a base of up to 36. -/
def digitValue? (c : Char) : Option Nat :=
  if '0' ≤ c && c ≤ '9' then some (c.toNat - '0'.toNat)
  else if 'a' ≤ c && c ≤ 'z' then some (c.toNat - 'a'.toNat + 10)
  else if 'A' ≤ c && c ≤ 'Z' then some (c.toNat - 'A'.toNat + 10)
  else none

/-- The values of the digits of a number. An underscore has to stand between two digits;
`afterDigit` tells whether one may stand here. -/
def digitsIn (base : Nat) (afterDigit : Bool) : List Char → Option (List Nat)
  | [] => if afterDigit then some [] else none
  | '_' :: rest => if afterDigit then digitsIn base false rest else none
  | c :: rest =>
    match digitValue? c with
    | some value =>
      if value < base then (digitsIn base true rest).map (value :: ·) else none
    | none => none

/-- The base that a prefix such as `0x` announces. -/
def announcedBase? : List Char → Option Nat
  | '0' :: 'x' :: _ | '0' :: 'X' :: _ => some 16
  | '0' :: 'o' :: _ | '0' :: 'O' :: _ => some 8
  | '0' :: 'b' :: _ | '0' :: 'B' :: _ => some 2
  | _ => none

/-- The digits after a prefix; one underscore may follow the prefix. -/
def afterBase (text : List Char) : List Char :=
  match text.drop 2 with
  | '_' :: rest => rest
  | rest => rest

/-- The base of a number and its digits. A base of zero stands for the base that the prefix
announces, or ten. -/
def cutBase (base : Nat) (text : List Char) : Nat × List Char :=
  match announcedBase? text with
  | some announced =>
    if base = 0 || base = announced then (announced, afterBase text) else (base, text)
  | none => (if base = 0 then 10 else base, text)

/-- The number that digits write in a base. -/
def digitsValue (base : Nat) (digits : List Nat) : Nat :=
  digits.foldl (fun value digit => value * base + digit) 0

/-- The base is a power of two. -/
def isBinaryBase (base : Nat) : Bool :=
  [2, 4, 8, 16, 32].contains base

/-- The integer that a text writes in a base, which is zero or from 2 to 36. A number of too many
digits cannot be read unless the base is a power of two; without a prefix, base zero takes no
leading zeros. -/
def readInt? (base : Int) (text : List Char) : Option Int := do
  if base < 0 || base = 1 || 36 < base then none
  let (negative, unsigned) := cutSign (asciiDigits text)
  let (radix, body) := cutBase base.toNat unsigned
  let digits ← digitsIn radix false body
  if maxTextDigits < digits.length && !isBinaryBase radix then none
  let value := digitsValue radix digits
  if base = 0 && (announcedBase? unsigned).isNone && digits.head? = some 0 && value ≠ 0 then none
  return if negative then -(value : Int) else value

/-- A text without underscores, each of which stood between two digits. -/
def dropUnderscores : Option Char → List Char → Option (List Char)
  | some '_', [] => none
  | _, [] => some []
  | previous, '_' :: rest =>
    if previous.any Char.isDigit then dropUnderscores (some '_') rest else none
  | previous, c :: rest =>
    if previous = some '_' && !c.isDigit then none
    else (dropUnderscores (some c) rest).map (c :: ·)

/-- The exponent at the front of a text: the value, and the text after it. -/
def cutExponent : List Char → Int × List Char
  | e :: rest =>
    if e = 'e' || e = 'E' then
      let (negative, unsigned) := cutSign rest
      let digits := unsigned.takeWhile Char.isDigit
      if digits.isEmpty then (0, e :: rest)
      else
        let value : Int := ofDigits digits
        (if negative then -value else value, unsigned.drop digits.length)
    else (0, e :: rest)
  | [] => (0, [])

/-- The digits after a point at the front of a text, and the text after them. -/
def cutFraction : List Char → List Char × List Char
  | '.' :: rest => (rest.takeWhile Char.isDigit, rest.dropWhile Char.isDigit)
  | text => ([], text)

/-- The double that an unsigned decimal writes, with or without point and exponent. -/
def readDecimal? (negative : Bool) (text : List Char) : Option Float :=
  let whole := text.takeWhile Char.isDigit
  let (fraction, afterPoint) := cutFraction (text.dropWhile Char.isDigit)
  let (exponent, rest) := cutExponent afterPoint
  if (whole.isEmpty && fraction.isEmpty) || !rest.isEmpty then none
  else
    some (floatOfDecimal negative (ofDigits (whole ++ fraction)) (exponent - fraction.length))

/-- The double that a text writes: a decimal, an infinity, or what is not a number. -/
def readFloat? (text : List Char) : Option Float := do
  let plain ← dropUnderscores none (asciiDigits text)
  let (negative, unsigned) := cutSign plain
  match String.ofList (unsigned.map Char.toLower) with
  | "inf" | "infinity" => return if negative then -1.0 / 0.0 else 1.0 / 0.0
  | "nan" => return 0.0 / 0.0
  | _ => readDecimal? negative unsigned

end Script.Number
