import Script.ErrorKind
import Script.Number.Decimal
import Script.Text.Blank
import Script.Text.Numeral
import Script.Text.Quoted
import Script.Token

/-!
# Cutting a source into tokens

`tokenize` cuts a source into tokens from left to right, each as long as possible. Blanks and
comments separate tokens and are dropped. The first place where no token can be cut is reported
as a `LexError`.
-/

namespace Script

-- Powers are those of the core library, whatever other instances are in scope.
attribute [local instance (high)] instPowNat

/-- Why no token can be cut from a source. -/
inductive LexFault where
  /-- A number runs into a name, or has more digits than can be read. -/
  | invalidNumber (text : String)
  /-- An integer does not fit in 64 bits. -/
  | integerOutOfRange (text : String)
  /-- A literal has no closing quote. -/
  | unterminatedString
  /-- A bytes literal holds a character that is not ASCII. -/
  | nonAsciiBytes
  /-- No token starts with this character. -/
  | unexpectedChar (c : Char)
  deriving DecidableEq, Repr

/-- The text of the message, without the place. -/
def LexFault.detail : LexFault → String
  | .invalidNumber text => s!"Invalid numeric literal {Text.quoted text}"
  | .integerOutOfRange text => s!"Integer literal {text} out of range"
  | .unterminatedString => "Unterminated string literal"
  | .nonAsciiBytes => "Bytes literal may only contain ASCII characters"
  | .unexpectedChar c => s!"Unexpected character {Text.quoted (String.singleton c)}"

/-- A malformed number is an error of value, all else an error of form. -/
def LexFault.kind : LexFault → ErrorKind
  | .invalidNumber _ | .integerOutOfRange _ => .valueError
  | .unterminatedString | .nonAsciiBytes | .unexpectedChar _ => .syntaxError

/-- The first fault of a source, with its place. -/
structure LexError where
  fault : LexFault
  pos : Nat
  deriving DecidableEq, Repr

/-- The text of the message. -/
def LexError.message (error : LexError) : String :=
  s!"{error.fault.detail} at index {error.pos}"

namespace Token

/-- One of the ten digits of a number in a source. -/
def isAsciiDigit (c : Char) : Bool :=
  '0' ≤ c && c ≤ '9'

/-- A character with which a name can start. -/
def isNameStart (c : Char) : Bool :=
  c = '_' || Text.isLetter c

/-- A character with which a name can go on. -/
def isNamePart (c : Char) : Bool :=
  c = '_' || Text.isAlphanumeric c

/-- The least number that is too large for an integer in a source. -/
def integerBound : Nat := 2 ^ (63 : Nat)

/-- The front of a source that makes up a token: its class, its text, and how many characters of
the source it takes. -/
structure Lexeme where
  kind : TokenKind
  text : List Char
  width : Nat
  deriving DecidableEq, Repr

/-- The quoted text at the front of what follows an opening quote. -/
def quotedBody? (rest : List Char) : Option (List Char) :=
  if rest.contains '"' then some (rest.takeWhile (· ≠ '"')) else none

/-- The digits after the point of a number, if a point with digits follows. -/
def fraction : List Char → List Char
  | '.' :: rest => rest.takeWhile isAsciiDigit
  | _ => []

/-- The number at the front of a source that starts with a digit. -/
def numberLexeme (source : List Char) : Except LexFault Lexeme :=
  let whole := source.takeWhile isAsciiDigit
  let fractional := fraction (source.drop whole.length)
  let digits := if fractional.isEmpty then whole else whole ++ '.' :: fractional
  let after := source.drop digits.length
  let imaginary := after.head? = some 'j' || after.head? = some 'J'
  let width := digits.length + (if imaginary then 1 else 0)
  if (source.drop width).head?.any isNamePart then
    .error (.invalidNumber (String.ofList (source.take (width + 1))))
  else if imaginary then .ok ⟨.imag, digits, width⟩
  else if !fractional.isEmpty then .ok ⟨.float, digits, width⟩
  else if Number.maxTextDigits < digits.length then .error (.invalidNumber (String.ofList digits))
  else if integerBound ≤ Number.ofDigits digits then
    .error (.integerOutOfRange (String.ofList digits))
  else .ok ⟨.int, digits, width⟩

/-- The operators of two characters. -/
def doubleOperators : List (List Char) :=
  [['*', '*'], ['/', '/'], ['=', '='], ['!', '='], ['<', '='], ['>', '='], ['<', '<'],
   ['>', '>'], ['=', '>'], ['-', '>'], [':', ':']]

/-- The operators of one character. -/
def singleOperators : List Char :=
  ['+', '-', '*', '/', '%', '<', '>', '=', '!', '&', '|', '^', '~']

/-- The class of a punctuation mark. -/
def punctuation? : Char → Option TokenKind
  | '(' => some .lparen
  | ')' => some .rparen
  | '[' => some .lbrack
  | ']' => some .rbrack
  | '\x7b' => some .lbrace
  | '\x7d' => some .rbrace
  | ',' => some .comma
  | ';' => some .semi
  | ':' => some .colon
  | '.' => some .dot
  | '@' => some .atSign
  | _ => none

/-- The operator or punctuation mark at the front of a source. -/
def symbolLexeme (c : Char) (rest : List Char) : Except LexFault Lexeme :=
  let pair := c :: rest.take 1
  if doubleOperators.contains pair then .ok ⟨.op, pair, 2⟩
  else
    match punctuation? c with
    | some kind => .ok ⟨kind, [c], 1⟩
    | none =>
      if singleOperators.contains c then .ok ⟨.op, [c], 1⟩ else .error (.unexpectedChar c)

/-- The name or keyword at the front of a source that starts like a name. -/
def wordLexeme (source : List Char) : Lexeme :=
  let word := source.takeWhile isNamePart
  ⟨if keywords.contains (String.ofList word) then .keyword else .name, word, word.length⟩

/-- The token at the front of a source whose first character is neither blank nor the start of a
comment. A fault comes with its distance from the front. -/
def lexeme (c : Char) (rest : List Char) : Except (LexFault × Nat) Lexeme :=
  if c = '"' then
    match quotedBody? rest with
    | some body => .ok ⟨.string, body, body.length + 2⟩
    | none => .error (.unterminatedString, 0)
  else if c = 'b' && rest.head? = some '"' then
    match quotedBody? rest.tail with
    | some body =>
      if body.all (·.toNat < 128) then .ok ⟨.bytes, body, body.length + 3⟩
      else .error (.nonAsciiBytes, 0)
    | none => .error (.unterminatedString, 1)
  else if isAsciiDigit c then (numberLexeme (c :: rest)).mapError (·, 0)
  else if isNameStart c then .ok (wordLexeme (c :: rest))
  else (symbolLexeme c rest).mapError (·, 0)

/-- The tokens of the rest of a source that starts at a given place and line, after the tokens
already cut, which are given in reverse. -/
def tokensFrom (done : List Token) (pos line : Nat) (source : List Char) :
    Except LexError (List Token) :=
  match source with
  | [] => .ok (done.reverse ++ [⟨.eof, "", pos, pos, line⟩])
  | c :: rest =>
    if c = '\n' then tokensFrom done (pos + 1) (line + 1) rest
    else if Text.isBlank c then tokensFrom done (pos + 1) line rest
    else if c = '#' then
      let comment := rest.takeWhile (· ≠ '\n')
      tokensFrom done (pos + 1 + comment.length) line (rest.drop comment.length)
    else
      match lexeme c rest with
      | .error (fault, offset) => .error ⟨fault, pos + offset⟩
      | .ok found =>
        let token : Token :=
          ⟨found.kind, String.ofList found.text, pos, pos + found.width, line⟩
        tokensFrom (token :: done) (pos + found.width) (line + found.text.count '\n')
          (rest.drop (found.width - 1))
termination_by source.length
decreasing_by
  all_goals simp +arith [List.length_drop]

/-- The tokens of a source, closed by one that marks its end. -/
def tokenize (source : String) : Except LexError (List Token) :=
  tokensFrom [] 0 1 source.toList

end Token

end Script
