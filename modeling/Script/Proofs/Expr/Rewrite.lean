import Script.Expr

/-!
# Rewriting programs

`Expr.mapParts` rewrites the expressions that stand directly in a construct. `Expr.eraseTypes`
takes the types out of a program: at any depth, and in the bodies of functions and classes too, a
binding with a type becomes the binding of the same name to the same value.
-/

namespace Script

namespace Expr

/-- The construct with all expressions that stand directly in it rewritten. -/
def mapParts (rewrite : Expr → Expr) : Expr → Expr
  | .binary operator left right => .binary operator (rewrite left) (rewrite right)
  | .unary operator operand => .unary operator (rewrite operand)
  | .assign bound value => .assign bound (rewrite value)
  | .assignIndex collection place value =>
    .assignIndex (rewrite collection) (rewrite place) (rewrite value)
  | .assignAttribute object field value => .assignAttribute (rewrite object) field (rewrite value)
  | .destructure names value => .destructure names (rewrite value)
  | .block body => .block (body.map rewrite)
  | .ifThen test thenBody elseBranch =>
    .ifThen (rewrite test) (thenBody.map rewrite) (elseBranch.map rewrite)
  | .whileLoop test body => .whileLoop (rewrite test) (body.map rewrite)
  | .forLoop binder iterable body => .forLoop binder (rewrite iterable) (body.map rewrite)
  | .matchOn subject arms =>
    .matchOn (rewrite subject) (arms.map fun arm => (rewrite arm.1, rewrite arm.2))
  | .tryCatch body binder handler => .tryCatch (body.map rewrite) binder (handler.map rewrite)
  | .throwError value cause => .throwError (rewrite value) (cause.map rewrite)
  | .returnValue value => .returnValue (value.map rewrite)
  | .letBind bound value => .letBind bound (rewrite value)
  | .typedLet bound typeName value => .typedLet bound typeName (rewrite value)
  | .constBind bound value => .constBind bound (rewrite value)
  | .defineFunction bound parameters body => .defineFunction bound parameters (body.map rewrite)
  | .defineClass bound bases members => .defineClass bound bases (members.map rewrite)
  | .call callee items => .call (rewrite callee) (items.map rewrite)
  | .index collection place => .index (rewrite collection) (rewrite place)
  | .getAttribute object field => .getAttribute (rewrite object) field
  | .ownField object field => .ownField (rewrite object) field
  | .methodCall object method items => .methodCall (rewrite object) method (items.map rewrite)
  | .newObject className items => .newObject className (items.map rewrite)
  | .newRecord className fields =>
    .newRecord className (fields.map fun field => (field.1, rewrite field.2))
  | .list items => .list (items.map rewrite)
  | .comprehension element binder iterable =>
    .comprehension (rewrite element) binder (rewrite iterable)
  | .dict pairs => .dict (pairs.map fun pair => (rewrite pair.1, rewrite pair.2))
  | .set items => .set (items.map rewrite)
  | .tuple items => .tuple (items.map rewrite)
  | expr => expr

theorem map_parts_id (expr : Expr) : expr.mapParts id = expr := by
  cases expr <;> simp [mapParts]

mutual

/-- The expression without the types of bindings in it. -/
def eraseTypes : Expr → Expr
  | .typedLet bound _ value => .letBind bound value.eraseTypes
  | .letBind bound value => .letBind bound value.eraseTypes
  | .constBind bound value => .constBind bound value.eraseTypes
  | .binary operator left right => .binary operator left.eraseTypes right.eraseTypes
  | .unary operator operand => .unary operator operand.eraseTypes
  | .assign bound value => .assign bound value.eraseTypes
  | .assignIndex collection place value =>
    .assignIndex collection.eraseTypes place.eraseTypes value.eraseTypes
  | .assignAttribute object field value => .assignAttribute object.eraseTypes field value.eraseTypes
  | .destructure names value => .destructure names value.eraseTypes
  | .block body => .block (eraseAll body)
  | .ifThen test thenBody elseBranch =>
    .ifThen test.eraseTypes (eraseAll thenBody) (eraseOption elseBranch)
  | .whileLoop test body => .whileLoop test.eraseTypes (eraseAll body)
  | .forLoop binder iterable body => .forLoop binder iterable.eraseTypes (eraseAll body)
  | .matchOn subject arms => .matchOn subject.eraseTypes (erasePairs arms)
  | .tryCatch body binder handler => .tryCatch (eraseAll body) binder (eraseAll handler)
  | .throwError value cause => .throwError value.eraseTypes (eraseOption cause)
  | .returnValue value => .returnValue (eraseOption value)
  | .defineFunction bound parameters body => .defineFunction bound parameters (eraseAll body)
  | .defineClass bound bases members => .defineClass bound bases (eraseAll members)
  | .call callee items => .call callee.eraseTypes (eraseAll items)
  | .index collection place => .index collection.eraseTypes place.eraseTypes
  | .getAttribute object field => .getAttribute object.eraseTypes field
  | .ownField object field => .ownField object.eraseTypes field
  | .methodCall object method items => .methodCall object.eraseTypes method (eraseAll items)
  | .newObject className items => .newObject className (eraseAll items)
  | .newRecord className fields => .newRecord className (eraseFields fields)
  | .list items => .list (eraseAll items)
  | .comprehension element binder iterable =>
    .comprehension element.eraseTypes binder iterable.eraseTypes
  | .dict pairs => .dict (erasePairs pairs)
  | .set items => .set (eraseAll items)
  | .tuple items => .tuple (eraseAll items)
  | expr => expr

/-- Expressions in a row without their types. -/
def eraseAll : List Expr → List Expr
  | [] => []
  | expr :: exprs => expr.eraseTypes :: eraseAll exprs

/-- An expression that may be left out without its types. -/
def eraseOption : Option Expr → Option Expr
  | none => none
  | some expr => some expr.eraseTypes

/-- Pairs of expressions without their types. -/
def erasePairs : List (Expr × Expr) → List (Expr × Expr)
  | [] => []
  | (left, right) :: pairs => (left.eraseTypes, right.eraseTypes) :: erasePairs pairs

/-- Named expressions without their types. -/
def eraseFields : List (String × Expr) → List (String × Expr)
  | [] => []
  | (field, value) :: fields => (field, value.eraseTypes) :: eraseFields fields

end

theorem erase_all_eq (exprs : List Expr) : eraseAll exprs = exprs.map eraseTypes := by
  induction exprs with
  | nil => simp [eraseAll]
  | cons expr exprs ih => simp [eraseAll, ih]

theorem erase_option_eq (expr : Option Expr) : eraseOption expr = expr.map eraseTypes := by
  cases expr <;> simp [eraseOption]

theorem erase_pairs_eq (pairs : List (Expr × Expr)) :
    erasePairs pairs = pairs.map fun pair => (pair.1.eraseTypes, pair.2.eraseTypes) := by
  induction pairs with
  | nil => simp [erasePairs]
  | cons pair pairs ih => simp [erasePairs, ih]

theorem erase_fields_eq (fields : List (String × Expr)) :
    eraseFields fields = fields.map fun field => (field.1, field.2.eraseTypes) := by
  induction fields with
  | nil => simp [eraseFields]
  | cons field fields ih => simp [eraseFields, ih]

/-- Only a binding with a type becomes another construct. -/
theorem erase_types_eq {expr : Expr}
    (h : ∀ bound typeName value, expr ≠ .typedLet bound typeName value) :
    expr.eraseTypes = expr.mapParts eraseTypes := by
  cases expr <;>
    simp [eraseTypes, mapParts, erase_all_eq, erase_option_eq, erase_pairs_eq, erase_fields_eq]
  all_goals exact (h _ _ _ rfl).elim

/-- Taking the types out twice is taking them out once. -/
theorem erase_types_twice (expr : Expr) : expr.eraseTypes.eraseTypes = expr.eraseTypes := by
  revert expr
  apply eraseTypes.induct (fun expr => expr.eraseTypes.eraseTypes = expr.eraseTypes)
    (fun fields => eraseFields (eraseFields fields) = eraseFields fields)
    (fun pairs => erasePairs (erasePairs pairs) = erasePairs pairs)
    (fun expr => eraseOption (eraseOption expr) = eraseOption expr)
    (fun exprs => eraseAll (eraseAll exprs) = eraseAll exprs) <;>
    simp_all [eraseTypes, eraseAll, eraseOption, erasePairs, eraseFields]

end Expr

/-- The program without its types. -/
def Program.eraseTypes (program : Program) : Program :=
  program.map Expr.eraseTypes

theorem Program.erase_types_twice (program : Program) :
    program.eraseTypes.eraseTypes = program.eraseTypes := by
  unfold eraseTypes
  rw [List.map_map]
  exact List.map_congr_left fun expr _ => expr.erase_types_twice

end Script
