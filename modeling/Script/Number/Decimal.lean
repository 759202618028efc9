/-!
# Decimal text of integers

The digits of a natural number, and the text of an integer. Numbers of more digits than
`maxTextDigits` have no text.
-/

namespace Script.Number

-- Powers are those of the core library, whatever other instances are in scope.
attribute [local instance (high)] instPowNat

/-- The decimal digit of a number below ten. -/
def digitChar (n : Nat) : Char :=
  Char.ofNat ('0'.toNat + n)

/-- The decimal digits of a number in front of some text. -/
def digitsBefore (n : Nat) (after : List Char) : List Char :=
  if n < 10 then digitChar n :: after
  else digitsBefore (n / 10) (digitChar (n % 10) :: after)
termination_by n

/-- The decimal digits of a number, without leading zeros. -/
def decimalDigits (n : Nat) : List Char :=
  digitsBefore n []

/-- The number that a row of ASCII digits writes. -/
def ofDigits (digits : List Char) : Nat :=
  digits.foldl (fun value c => value * 10 + (c.toNat - '0'.toNat)) 0

/-- The decimal text of an integer of any size. -/
def decimalText : Int → String
  | .ofNat n => String.ofList (decimalDigits n)
  | .negSucc n => String.ofList ('-' :: decimalDigits (n + 1))

/-- The most digits that the text of an integer may have, to be written or to be read. -/
def maxTextDigits : Nat := 4300

/-- The text of an integer, if it does not have too many digits. -/
def text? (n : Int) : Option String :=
  if n.natAbs < 10 ^ maxTextDigits then some (decimalText n) else none

end Script.Number
