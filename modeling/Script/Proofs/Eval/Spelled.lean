import Script.Eval.Step
import Script.Proofs.Parser.WellFormed

/-!
# Operators by how they are written

An operator that is given by its spelling is looked up in a table, and an unknown one is an error.
`evaluateSpelled` evaluates with this look-up. No expression has an operator that is not found, so
it is the evaluator itself. Together with what is known of trees that have been read:
`Program.well_formed_of_source`.
-/

namespace Script

/-- A binary operator that is looked up by its symbol is that operator. -/
theorem BinaryOperator.apply_symbol_symbol (operator : BinaryOperator) :
    applySymbol operator.symbol = operator.apply := by
  unfold applySymbol
  rw [operator.of_symbol_symbol]

/-- A unary operator that is looked up by its symbol is that operator. -/
theorem UnaryOperator.apply_symbol_symbol (operator : UnaryOperator) :
    applySymbol operator.symbol = operator.apply := by
  unfold applySymbol
  rw [operator.of_symbol_symbol]

namespace Eval

/-- The rule of each construct, with operators looked up by how they are written. -/
def stepSpelled (ev : Evaluator) (fuel : Nat) : Expr → Eval Value
  | .binary .and left right => binary ev .and left right
  | .binary .or left right => binary ev .or left right
  | .binary operator left right => do
    let leftValue ← ev left
    let rightValue ← ev right
    perform (BinaryOperator.applySymbol operator.symbol leftValue rightValue)
  | .unary operator operand => do
    let value ← ev operand
    perform (UnaryOperator.applySymbol operator.symbol value)
  | expr => step ev fuel expr

/-- The value of an expression, with operators looked up by how they are written. -/
def evaluateSpelled : Nat → Expr → Eval Value
  | 0, _ => throw .outOfFuel
  | fuel + 1, expr => stepSpelled (evaluateSpelled fuel) fuel expr

/-- The look-up of operators changes no rule. -/
theorem step_spelled (ev : Evaluator) (fuel : Nat) (expr : Expr) :
    stepSpelled ev fuel expr = step ev fuel expr := by
  unfold stepSpelled
  split
  · rfl
  · rfl
  · rename_i operator left right hand hor
    rw [operator.apply_symbol_symbol]
    cases operator with
    | and => exact (hand rfl).elim
    | or => exact (hor rfl).elim
    | _ => rfl
  · rename_i operator operand
    rw [operator.apply_symbol_symbol]
    rfl
  · rfl

/-- The look-up of operators changes no evaluation. -/
theorem evaluate_spelled (fuel : Nat) : evaluateSpelled fuel = evaluate fuel := by
  induction fuel with
  | zero => rfl
  | succ fuel ih =>
      funext expr
      show stepSpelled (evaluateSpelled fuel) fuel expr = step (evaluate fuel) fuel expr
      rw [ih, step_spelled]

end Eval

namespace Program

open Token Script.Expr

/-- Every node of a program that is read from a source keeps to what is said of it: bounds of
numbers and bytes, names that are no keywords, distinct parameters, members of classes, receivers of
fields and branches of conditionals. Operators that are looked up by how they are written are always
found, so a run of the program with that look-up is a run without it. -/
theorem well_formed_of_source {source : String} {tokens : List Token} {memoise : Bool} {limit : Nat}
    {program : Program} (htokens : tokenize source = .ok tokens)
    (hprogram : ofTokensWithin memoise limit tokens = .ok program) :
    (∀ statement ∈ program, ∀ node, NodeOf node statement → node.Proper) ∧
      ∀ fuel, Eval.body (Eval.evaluateSpelled fuel) program =
        Eval.body (Eval.evaluate fuel) program := by
  refine ⟨well_formed_of_tokens (sound_of_tokenize htokens) hprogram, fun fuel => ?_⟩
  rw [Eval.evaluate_spelled]

/-- Two names that are assigned the items of a product. -/
theorem well_formed_of_source_destructure :
    let source := "a, b = -3 * 2"
    let tokens : List Token :=
      [⟨.name, "a", 0, 1, 1⟩, ⟨.comma, ",", 1, 2, 1⟩, ⟨.name, "b", 3, 4, 1⟩, ⟨.op, "=", 5, 6, 1⟩,
       ⟨.op, "-", 7, 8, 1⟩, ⟨.int, "3", 8, 9, 1⟩, ⟨.op, "*", 10, 11, 1⟩, ⟨.int, "2", 12, 13, 1⟩,
       ⟨.eof, "", 13, 13, 1⟩]
    let program : Program :=
      [.destructure ["a", "b"] (.binary .multiply (.unary .negate (.int 3)) (.int 2))]
    tokenize source = .ok tokens ∧ ofTokensWithin true 10 tokens = .ok program ∧
      (∀ statement ∈ program, ∀ node, NodeOf node statement → node.Proper) ∧
      ∀ fuel, Eval.body (Eval.evaluateSpelled fuel) program =
        Eval.body (Eval.evaluate fuel) program := by
  intro source tokens program
  have htokens : tokenize source = .ok tokens := by decide +kernel
  have hprogram : ofTokensWithin true 10 tokens = .ok program := by cbv
  exact ⟨htokens, hprogram, well_formed_of_source htokens hprogram⟩

end Program

end Script
