import Script.Proofs.Expr.Parts
import Script.Proofs.Expr.Render
import Script.Proofs.Token.Texts

/-!
# Well-formed trees

What every node of a tree keeps to that has been read from a source, beyond what its type says:
numbers and bytes within their bounds, names that are no keywords, and constructs only where the
grammar has a place for them. `Expr.Proper` says it of one node, `Expr.WellFormed` of all nodes
within an expression.
-/

namespace Script.Expr

open Token

/-- The expressions that stand directly in a construct, whenever they are evaluated. -/
def children : Expr → List Expr
  | .defineFunction _ _ body => body
  | .defineClass _ _ members => members
  | .comprehension element _ iterable => [element, iterable]
  | expr => expr.sharedParts

/-- A node of the tree of an expression: the expression itself, or one within a part of it. -/
inductive NodeOf : Expr → Expr → Prop where
  | self (expr : Expr) : NodeOf expr expr
  | within {node part expr : Expr} : part ∈ expr.children → NodeOf node part → NodeOf node expr

/-- What can follow an `else`. -/
def IsBranch : Expr → Prop
  | .block _ | .ifThen _ _ _ => True
  | _ => False

/-- What can stand in the body of a class. -/
def IsMember : Expr → Prop
  | .defineFunction _ _ _ | .assign _ _ | .letBind _ _ | .typedLet _ _ _ => True
  | _ => False

/-- What a node keeps to, apart from its parts. Operators are found by how they are written. -/
def Proper : Expr → Prop
  | .int value => value < integerBound
  | .bytes value => ∀ byte ∈ value, byte < 128
  | .binary operator _ _ => BinaryOperator.ofSymbol? operator.symbol = some operator
  | .unary operator _ =>
    operator.symbol ∈ ["not", "-", "~"] ∧ UnaryOperator.ofSymbol? operator.symbol = some operator
  | .name word | .assign word _ | .letBind word _ | .typedLet word _ _ | .constBind word _ =>
    IsName word
  | .destructure words _ => 2 ≤ words.length ∧ ∀ word ∈ words, IsName word
  | .ifThen _ _ elseBranch => ∀ branch ∈ elseBranch, branch.IsBranch
  | .forLoop binder _ _ | .comprehension _ binder _ => IsName binder
  | .tryCatch _ binder _ => ∀ word ∈ binder, IsName word
  | .defineFunction word parameters _ =>
    IsName word ∧ parameters.Nodup ∧ ∀ parameter ∈ parameters, IsName parameter
  | .defineClass word bases members =>
    IsName word ∧ (∀ base ∈ bases, IsName base) ∧ ∀ member ∈ members, member.IsMember
  | .defineStruct word parts | .defineEnum word parts => IsName word ∧ ∀ part ∈ parts, IsName part
  | .getAttribute object _ => object ≠ .name "self"
  | .ownField object _ => object = .name "self"
  | .newObject className _ => IsName className
  | .newRecord className fields => IsName className ∧ ∀ field ∈ fields, IsName field.1
  | .enumVariant enumName variant => IsName enumName ∧ IsName variant
  | _ => True

/-- Every node of the expression keeps to what is said of it. -/
def WellFormed (expr : Expr) : Prop :=
  ∀ node, NodeOf node expr → node.Proper

/-- All of the expressions are well-formed. -/
def AllWellFormed (exprs : List Expr) : Prop :=
  ∀ expr ∈ exprs, expr.WellFormed

section WellFormed

variable {expr part : Expr} {exprs others : List Expr}

/-- An expression is well-formed if its parts are and it keeps to what is said of it. -/
theorem WellFormed.intro (hproper : expr.Proper) (hparts : AllWellFormed expr.children) :
    expr.WellFormed := by
  intro node hnode
  cases hnode with
  | self => exact hproper
  | within hpart hnode => exact hparts _ hpart node hnode

/-- What is said of a well-formed expression itself. -/
theorem WellFormed.proper (h : expr.WellFormed) : expr.Proper :=
  h expr (.self expr)

/-- The parts of a well-formed expression. -/
theorem WellFormed.parts (h : expr.WellFormed) : AllWellFormed expr.children :=
  fun _ hpart node hnode => h node (.within hpart hnode)

/-- No expressions are all well-formed. -/
theorem AllWellFormed.nil : AllWellFormed [] :=
  nofun

/-- One more expression. -/
theorem AllWellFormed.cons (h : expr.WellFormed) (hrest : AllWellFormed exprs) :
    AllWellFormed (expr :: exprs) :=
  List.forall_mem_cons.mpr ⟨h, hrest⟩

/-- Some expressions and others. -/
theorem AllWellFormed.append (h : AllWellFormed exprs) (hothers : AllWellFormed others) :
    AllWellFormed (exprs ++ others) :=
  List.forall_mem_append.mpr ⟨h, hothers⟩

/-- An expression that may be missing. -/
theorem AllWellFormed.option {found : Option Expr} (h : ∀ expr ∈ found, expr.WellFormed) :
    AllWellFormed found.toList := by
  intro expr hexpr
  exact h expr (Option.mem_toList.mp hexpr)

/-- Both expressions of each pair. -/
theorem AllWellFormed.pairs {rows : List (Expr × Expr)}
    (h : ∀ row ∈ rows, row.1.WellFormed ∧ row.2.WellFormed) :
    AllWellFormed (rows.flatMap fun row => [row.1, row.2]) := by
  intro expr hexpr
  obtain ⟨row, hrow, hmem⟩ := List.mem_flatMap.mp hexpr
  obtain ⟨hfirst, hsecond⟩ := h row hrow
  exact AllWellFormed.cons hfirst (.cons hsecond .nil) expr hmem

/-- An operator between two expressions. -/
theorem WellFormed.binary {operator : BinaryOperator} {left right : Expr} (hleft : left.WellFormed)
    (hright : right.WellFormed) : (Expr.binary operator left right).WellFormed :=
  .intro operator.of_symbol_symbol (.cons hleft (.cons hright .nil))

/-- An operator before an expression. -/
theorem WellFormed.unary {operator : UnaryOperator} {operand : Expr} (h : operand.WellFormed) :
    (Expr.unary operator operand).WellFormed := by
  refine .intro ⟨?_, operator.of_symbol_symbol⟩ (.cons h .nil)
  cases operator <;> decide

/-- A conditional. -/
theorem WellFormed.ifThen {test : Expr} {thenBody : List Expr} {elseBranch : Option Expr}
    (htest : test.WellFormed) (hthen : AllWellFormed thenBody)
    (helse : ∀ branch ∈ elseBranch, branch.WellFormed ∧ branch.IsBranch) :
    (Expr.ifThen test thenBody elseBranch).WellFormed :=
  .intro (fun branch hbranch => (helse branch hbranch).2)
    (.cons htest (.append hthen (.option fun branch hbranch => (helse branch hbranch).1)))

end WellFormed

end Script.Expr
