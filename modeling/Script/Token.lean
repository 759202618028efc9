/-!
# Tokens

The units that a source text is cut into. A token keeps where it starts and stops, counted in
characters from the start of the source, and the number of the line on which it starts.
-/

namespace Script

/-- The classes of token. -/
inductive TokenKind where
  | int
  | float
  | imag
  | string
  | bytes
  | name
  | keyword
  | lparen
  | rparen
  | lbrack
  | rbrack
  | lbrace
  | rbrace
  | comma
  | semi
  | colon
  | dot
  | atSign
  | op
  | eof
  deriving DecidableEq, Repr, Inhabited

/-- The name of a class of token in messages. -/
def TokenKind.label : TokenKind → String
  | .int => "INT"
  | .float => "FLOAT"
  | .imag => "IMAG"
  | .string => "STRING"
  | .bytes => "BYTES"
  | .name => "NAME"
  | .keyword => "KEYWORD"
  | .lparen => "LPAREN"
  | .rparen => "RPAREN"
  | .lbrack => "LBRACK"
  | .rbrack => "RBRACK"
  | .lbrace => "LBRACE"
  | .rbrace => "RBRACE"
  | .comma => "COMMA"
  | .semi => "SEMI"
  | .colon => "COLON"
  | .dot => "DOT"
  | .atSign => "AT"
  | .op => "OP"
  | .eof => "EOF"

/-- A piece of source text with its class. The text of a string or bytes literal is without its
quotes, that of an imaginary number without its suffix. -/
structure Token where
  kind : TokenKind
  text : String
  pos : Nat
  stop : Nat
  line : Nat
  deriving DecidableEq, Repr

/-- The token that stands where there is none: the end of an empty source. -/
instance : Inhabited Token :=
  ⟨⟨.eof, "", 0, 0, 1⟩⟩

namespace Token

/-- The words that are never names. -/
def keywords : List String :=
  ["let", "const", "if", "else", "while", "for", "in", "fn", "return", "break", "continue",
   "match", "try", "catch", "throw", "import", "class", "extends", "struct", "enum", "and", "or",
   "not", "is", "true", "false", "null", "new", "from", "async", "await"]

/-- The token is this operator. -/
def isOp (token : Token) (symbol : String) : Bool :=
  token.kind = .op && token.text == symbol

/-- The token is this keyword. -/
def isKeyword (token : Token) (word : String) : Bool :=
  token.kind = .keyword && token.text == word

/-- How a token is described in a message: its class, followed by its text if it has any. -/
def describe (token : Token) : String :=
  if token.kind = .eof then "EOF"
  else if token.text.isEmpty then token.kind.label
  else s!"{token.kind.label}({token.text})"

end Token

end Script
