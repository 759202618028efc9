import Script.Expr

/-!
# The parts of a construct

Which expressions the evaluation of a construct may evaluate in turn, sorted by what a jump out of
them means: parts that stand directly in the construct, bodies of loops, and bodies of functions,
which are evaluated only when the function is called.
-/

namespace Script.Expr

/-- The default that a member of a class gives to a field. -/
def fieldDefault? : Expr → Option Expr
  | .assign _ value | .letBind _ value | .typedLet _ _ value => some value
  | _ => none

/-- The parts of a construct that are evaluated in the scope it stands in. -/
def sharedParts : Expr → List Expr
  | .binary _ left right => [left, right]
  | .unary _ operand => [operand]
  | .assign _ value | .letBind _ value | .typedLet _ _ value | .constBind _ value
  | .destructure _ value => [value]
  | .assignIndex collection place value => [collection, place, value]
  | .assignAttribute object _ value => [object, value]
  | .block exprs => exprs
  | .ifThen test thenBody elseBranch => test :: (thenBody ++ elseBranch.toList)
  | .whileLoop test exprs => test :: exprs
  | .forLoop _ iterable exprs => iterable :: exprs
  | .matchOn subject arms => subject :: arms.flatMap fun arm => [arm.1, arm.2]
  | .tryCatch exprs _ handler => exprs ++ handler
  | .throwError value cause => value :: cause.toList
  | .returnValue value => value.toList
  -- Methods have scopes of their own; the defaults of the fields have not.
  | .defineClass _ _ members => members.filterMap fieldDefault?
  | .call callee items => callee :: items
  | .index collection place => [collection, place]
  | .getAttribute object _ | .ownField object _ => [object]
  | .methodCall object _ items => object :: items
  | .newObject _ items => items
  | .newRecord _ fields => fields.map (·.2)
  | .list items | .set items | .tuple items => items
  | .comprehension _ _ iterable => [iterable]
  | .dict pairs => pairs.flatMap fun pair => [pair.1, pair.2]
  | _ => []

/-- The parts of a construct that are neither in the body of a loop nor in that of a function which
it starts. -/
def directParts : Expr → List Expr
  | .whileLoop test _ => [test]
  | .forLoop _ iterable _ => [iterable]
  | .comprehension element _ iterable => [element, iterable]
  | expr => expr.sharedParts

/-- The body of a loop. -/
def loopBody : Expr → List Expr
  | .whileLoop _ exprs | .forLoop _ _ exprs => exprs
  | _ => []

/-- The body of a function definition. -/
def functionBody? : Expr → Option (List Expr)
  | .defineFunction _ _ exprs => some exprs
  | _ => none

/-- The bodies of the functions and methods that a construct defines. -/
def functionBodies : Expr → List (List Expr)
  | .defineFunction _ _ exprs => [exprs]
  | .defineClass _ _ members => members.filterMap functionBody?
  | _ => []

end Script.Expr
