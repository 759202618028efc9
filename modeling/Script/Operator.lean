/-!
# Operators

The binary and unary operators of the language and how they are written.
-/

namespace Script

/-- The binary operators, loosest binding first. -/
inductive BinaryOperator where
  | or
  | and
  | equal
  | notEqual
  | less
  | greater
  | lessEqual
  | greaterEqual
  | is
  | isNot
  | within
  | notWithin
  | bitOr
  | bitXor
  | bitAnd
  | shiftLeft
  | shiftRight
  | add
  | subtract
  | multiply
  | divide
  | remainder
  | floorDivide
  | power
  deriving DecidableEq, Repr, Inhabited

namespace BinaryOperator

/-- How an operator is written. -/
def symbol : BinaryOperator → String
  | .or => "or"
  | .and => "and"
  | .equal => "=="
  | .notEqual => "!="
  | .less => "<"
  | .greater => ">"
  | .lessEqual => "<="
  | .greaterEqual => ">="
  | .is => "is"
  | .isNot => "is not"
  | .within => "in"
  | .notWithin => "not in"
  | .bitOr => "|"
  | .bitXor => "^"
  | .bitAnd => "&"
  | .shiftLeft => "<<"
  | .shiftRight => ">>"
  | .add => "+"
  | .subtract => "-"
  | .multiply => "*"
  | .divide => "/"
  | .remainder => "%"
  | .floorDivide => "//"
  | .power => "**"

/-- All binary operators. -/
def all : List BinaryOperator :=
  [.or, .and, .equal, .notEqual, .less, .greater, .lessEqual, .greaterEqual, .is, .isNot, .within,
   .notWithin, .bitOr, .bitXor, .bitAnd, .shiftLeft, .shiftRight, .add, .subtract, .multiply,
   .divide, .remainder, .floorDivide, .power]

/-- The operator that is written in a given way. -/
def ofSymbol? (text : String) : Option BinaryOperator :=
  all.find? fun operator => operator.symbol == text

end BinaryOperator

/-- The unary operators. -/
inductive UnaryOperator where
  | negate
  | invert
  | not
  deriving DecidableEq, Repr, Inhabited

namespace UnaryOperator

/-- How an operator is shown. -/
def symbol : UnaryOperator → String
  | .negate => "-"
  | .invert => "~"
  | .not => "not"

/-- The operator that is shown in a given way. -/
def ofSymbol? (text : String) : Option UnaryOperator :=
  [.negate, .invert, .not].find? fun operator => operator.symbol == text

end UnaryOperator

end Script
