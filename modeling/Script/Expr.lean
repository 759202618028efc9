import Script.Operator

/-!
# Expressions

The tree of a program. There is no separate class of statements: every construct is an expression
and has a value, and a program is a list of expressions. Bodies of blocks, loops, branches and
functions are lists as well.
-/

namespace Script

/-- The constructs of the language. -/
inductive Expr where
  | int (value : Nat)
  | float (value : Float)
  | imaginary (value : Float)
  | string (value : String)
  | bytes (value : List UInt8)
  | bool (value : Bool)
  | null
  | name (name : String)
  | binary (operator : BinaryOperator) (left right : Expr)
  | unary (operator : UnaryOperator) (operand : Expr)
  | assign (name : String) (value : Expr)
  | assignIndex (collection index value : Expr)
  | assignAttribute (object : Expr) (name : String) (value : Expr)
  | destructure (names : List String) (value : Expr)
  | block (body : List Expr)
  | ifThen (condition : Expr) (thenBody : List Expr) (elseBranch : Option Expr)
  | whileLoop (condition : Expr) (body : List Expr)
  | forLoop (binder : String) (iterable : Expr) (body : List Expr)
  | matchOn (subject : Expr) (arms : List (Expr × Expr))
  | tryCatch (body : List Expr) (binder : Option String) (handler : List Expr)
  | throwError (value : Expr) (cause : Option Expr)
  | returnValue (value : Option Expr)
  | breakLoop
  | continueLoop
  | letBind (name : String) (value : Expr)
  | typedLet (name typeName : String) (value : Expr)
  | constBind (name : String) (value : Expr)
  | defineFunction (name : String) (parameters : List String) (body : List Expr)
  | defineClass (name : String) (bases : List String) (members : List Expr)
  | defineStruct (name : String) (fields : List String)
  | defineEnum (name : String) (variants : List String)
  | call (callee : Expr) (arguments : List Expr)
  | index (collection index : Expr)
  | getAttribute (object : Expr) (name : String)
  | ownField (object : Expr) (name : String)
  | methodCall (object : Expr) (method : String) (arguments : List Expr)
  | newObject (className : String) (arguments : List Expr)
  | newRecord (className : String) (fields : List (String × Expr))
  | enumVariant (enumName variant : String)
  | list (items : List Expr)
  | comprehension (element : Expr) (binder : String) (iterable : Expr)
  | dict (pairs : List (Expr × Expr))
  | set (items : List Expr)
  | tuple (items : List Expr)
  | importModule (target : String)
  deriving Inhabited

/-- A program is the list of its statements. -/
abbrev Program := List Expr

/-- A program as one expression: nothing, its only statement, or a block of its statements. -/
def Program.toExpr? : Program → Option Expr
  | [] => none
  | [statement] => some statement
  | statements => some (.block statements)

end Script
