import Script.Proofs.Parser.Memo
import Script.Proofs.Parser.Yields

/-!
# The levels of the grammar

The rules for operators form a tower of levels: each reads operands of the next level and, below
the powers, joins them to the left by the operators of its own. `Piece.tightness` is the level of
what could go on after an expression, so a level stops where it is lower.
-/

namespace Script

namespace Piece

/-- How tightly what a row of pieces starts with binds to an expression before it. -/
def tightness : List Piece → Nat
  | ⟨.lparen, _⟩ :: _ | ⟨.lbrack, _⟩ :: _ | ⟨.dot, _⟩ :: _ | ⟨.op, "::"⟩ :: _ => 13
  | ⟨.op, symbol⟩ :: _ =>
    match BinaryOperator.ofSymbol? symbol with
    | some operator => operator.level
    | none => 0
  | ⟨.keyword, "or"⟩ :: _ => 1
  | ⟨.keyword, "and"⟩ :: _ => 2
  | ⟨.keyword, "is"⟩ :: _ | ⟨.keyword, "in"⟩ :: _ => 4
  | ⟨.keyword, "not"⟩ :: ⟨.keyword, "in"⟩ :: _ => 4
  | _ => 0

/-- An operator binds with its level. -/
theorem tightness_operator (operator : BinaryOperator) (rest : List Piece) :
    tightness (operator.pieces ++ rest) = operator.level := by
  cases operator <;> rfl

/-- A row that starts with a piece other than the end of the source. -/
theorem eq_cons_of_front {pieces : List Piece} {piece : Piece} (h : front pieces = piece)
    (hpiece : piece ≠ ending) : ∃ rest, pieces = piece :: rest := by
  cases pieces with
  | nil => exact absurd h.symm hpiece
  | cons first rest => exact ⟨rest, congrArg (· :: rest) h⟩

end Piece

namespace Grammar

open Script.Parser Piece

variable {pieces rest : List Piece} {operator : BinaryOperator} {level : Nat}

/-- What writes an operator is not next if something looser is. -/
theorem front_ne_of_tightness (operator : BinaryOperator) {piece : Piece}
    (hpieces : operator.pieces = [piece]) (h : tightness pieces < operator.level) :
    front pieces ≠ piece := by
  intro hfront
  have hpiece : piece ≠ ending := by
    rintro rfl
    cases operator <;> cases hpieces
  obtain ⟨rest, rfl⟩ := eq_cons_of_front hfront hpiece
  have htight := tightness_operator operator rest
  rw [hpieces, List.singleton_append] at htight
  omega

/-! ## Single operators -/

theorem symbol_inj {operator other : BinaryOperator} (h : operator.symbol = other.symbol) :
    operator = other := by
  have hsame := operator.of_symbol_symbol
  rw [h, other.of_symbol_symbol] at hsame
  exact (Option.some.inj hsame).symm

/-- One of several operators that are written by a sign. -/
theorem yields_operator_among {operators : List BinaryOperator} (hmem : operator ∈ operators) :
    Yields (operatorAmong operators) (⟨.op, operator.symbol⟩ :: rest) (some operator) rest := by
  refine yields_peek fun token hfits => ?_
  have hfind : (operators.find? fun other => token.isOp other.symbol) = some operator := by
    cases hfound : operators.find? fun other => token.isOp other.symbol with
    | none =>
        have hother := List.find?_eq_none.mp hfound operator hmem
        exact absurd ((hfits.is_op operator.symbol).trans (decide_eq_true rfl)) hother
    | some other =>
        have hother := List.find?_some hfound
        rw [hfits.is_op, decide_eq_true_eq] at hother
        rw [symbol_inj (congrArg Piece.text hother)]
  rw [hfind]
  exact yields_advance fun _ _ => yields_pure _ _

/-- None of several operators that are written by a sign. -/
theorem yields_operator_among_none {operators : List BinaryOperator}
    (h : ∀ operator ∈ operators, front pieces ≠ ⟨.op, operator.symbol⟩) :
    Yields (operatorAmong operators) pieces none pieces := by
  refine yields_peek fun token hfits => ?_
  have hfind : (operators.find? fun other => token.isOp other.symbol) = none := by
    refine List.find?_eq_none.mpr fun other hother => ?_
    rw [hfits.is_op, decide_eq_false (h other hother)]
    exact Bool.false_ne_true
  rw [hfind]
  exact yields_pure _ _

/-- The operator that a keyword writes. -/
theorem yields_keyword_operator :
    Yields (keywordOperator operator) (⟨.keyword, operator.symbol⟩ :: rest) (some operator) rest :=
  (yields_accept_keyword operator.symbol).bind (yields_pure _ _)

/-- Another operator than that, or none. -/
theorem yields_keyword_operator_none (h : front pieces ≠ ⟨.keyword, operator.symbol⟩) :
    Yields (keywordOperator operator) pieces none pieces :=
  (yields_accept_keyword_not h).bind (yields_pure _ _)

/-! ## Comparisons -/

/-- The comparisons that are written by keywords. -/
def keywordComparison? : Parser (Option BinaryOperator) := do
  if ← acceptKeyword "is" then
    if ← acceptKeyword "not" then return some .isNot else return some .is
  else if ← acceptKeyword "in" then return some .within
  else if (← peek).isKeyword "not" && (← get).peekSecond.isKeyword "in" then
    let _ ← advance
    let _ ← advance
    return some .notWithin
  else return none

/-- A comparison is written by a sign or by keywords. -/
theorem comparison_operator_eq :
    comparisonOperator? = (do
      match ← operatorAmong [.less, .greater, .lessEqual, .greaterEqual] with
      | some operator => return some operator
      | none => keywordComparison?) :=
  rfl

/-- Keywords are told apart. -/
theorem front_ne_keyword {word other : String} (h : word ≠ other) (rest : List Piece) :
    front (⟨.keyword, word⟩ :: rest) ≠ ⟨.keyword, other⟩ :=
  fun hsame => h (congrArg Piece.text hsame)

/-- A comparison that is written by a keyword. -/
theorem yields_comparison_keyword {word : String} {result : Option BinaryOperator}
    {after : List Piece} (h : Yields keywordComparison? (⟨.keyword, word⟩ :: pieces) result after) :
    Yields comparisonOperator? (⟨.keyword, word⟩ :: pieces) result after := by
  rw [comparison_operator_eq]
  refine (yields_operator_among_none ?_).bind h
  intro operator _ hfront
  cases hfront

/-- Every comparison, if `is` is not followed by `not`. -/
theorem yields_comparison (hlevel : operator.level = 4)
    (hnot : operator = .is → front rest ≠ ⟨.keyword, "not"⟩) :
    Yields comparisonOperator? (operator.pieces ++ rest) (some operator) rest := by
  have hsign (hmem : operator ∈ [.less, .greater, .lessEqual, .greaterEqual]) :
      Yields comparisonOperator? (⟨.op, operator.symbol⟩ :: rest) (some operator) rest := by
    rw [comparison_operator_eq]
    refine (yields_operator_among hmem).bind ?_
    exact yields_pure _ _
  cases operator with
  | less | greater | lessEqual | greaterEqual => exact hsign (by decide)
  | is =>
      refine yields_comparison_keyword ?_
      refine (yields_accept_keyword "is").bind ?_
      exact (yields_accept_keyword_not (hnot rfl)).bind (yields_pure _ _)
  | isNot =>
      refine yields_comparison_keyword ?_
      refine (yields_accept_keyword "is").bind ?_
      exact (yields_accept_keyword "not").bind (yields_pure _ _)
  | within =>
      refine yields_comparison_keyword ?_
      refine (yields_accept_keyword_not (front_ne_keyword (by decide) _)).bind ?_
      exact (yields_accept_keyword "in").bind (yields_pure _ _)
  | notWithin =>
      refine yields_comparison_keyword ?_
      refine (yields_accept_keyword_not (front_ne_keyword (by decide) _)).bind ?_
      refine (yields_accept_keyword_not (front_ne_keyword (by decide) _)).bind ?_
      refine yields_peek fun token hfits => yields_get fun cursor hshows => ?_
      have hboth : (token.isKeyword "not" && cursor.peekSecond.isKeyword "in") = true := by
        rw [hfits.is_keyword, hshows.peek_second.is_keyword]
        rfl
      rw [if_pos hboth]
      exact yields_advance fun _ _ => yields_advance fun _ _ => yields_pure _ _
  | _ => cases hlevel

/-- No comparison where something looser follows. -/
theorem yields_comparison_none (h : tightness pieces < 4) :
    Yields comparisonOperator? pieces none pieces := by
  have hfront {piece : Piece} (operator : BinaryOperator) (hpieces : operator.pieces = [piece])
      (hlevel : operator.level = 4) : front pieces ≠ piece :=
    front_ne_of_tightness operator hpieces (by omega)
  rw [comparison_operator_eq]
  refine (yields_operator_among_none ?_).bind ?_
  · simp only [List.forall_mem_cons, List.not_mem_nil, false_implies, implies_true, and_true]
    exact ⟨hfront .less rfl rfl, hfront .greater rfl rfl, hfront .lessEqual rfl rfl,
      hfront .greaterEqual rfl rfl⟩
  · refine (yields_accept_keyword_not (hfront .is rfl rfl)).bind ?_
    refine (yields_accept_keyword_not (hfront .within rfl rfl)).bind ?_
    refine yields_peek fun token hfits => yields_get fun cursor hshows => ?_
    have hboth : (token.isKeyword "not" && cursor.peekSecond.isKeyword "in") = false := by
      rw [hfits.is_keyword]
      -- A lone `not` would start an operand and is no comparison.
      by_cases hnot : front pieces = ⟨.keyword, "not"⟩
      · obtain ⟨rest, rfl⟩ := eq_cons_of_front hnot (by decide)
        have hin : front rest ≠ ⟨.keyword, "in"⟩ := by
          intro hin
          obtain ⟨rest, rfl⟩ := eq_cons_of_front hin (by decide)
          have htight := tightness_operator .notWithin rest
          exact absurd htight (Nat.ne_of_lt h)
        rw [hshows.peek_second.is_keyword, decide_eq_false hin, Bool.and_false]
      · rw [decide_eq_false hnot, Bool.false_and]
    rw [hboth]
    exact yields_pure _ _

/-! ## All levels -/

/-- The operators of a level below the powers. -/
def operatorAt : Nat → Parser (Option BinaryOperator)
  | 1 => keywordOperator .or
  | 2 => keywordOperator .and
  | 3 => operatorAmong [.equal, .notEqual]
  | 4 => comparisonOperator?
  | 5 => operatorAmong [.bitOr]
  | 6 => operatorAmong [.bitXor]
  | 7 => operatorAmong [.bitAnd]
  | 8 => operatorAmong [.shiftLeft, .shiftRight]
  | 9 => operatorAmong [.add, .subtract]
  | _ => operatorAmong [.multiply, .divide, .remainder, .floorDivide]

/-- The parser of a level. -/
def operandAt (g : Grammar) : Nat → Parser Expr
  | 1 => disjunction g
  | 2 => conjunction g
  | 3 => equality g
  | 4 => comparison g
  | 5 => arithmetic g arithmeticLevels
  | 6 => arithmetic g (arithmeticLevels.drop 1)
  | 7 => arithmetic g (arithmeticLevels.drop 2)
  | 8 => arithmetic g (arithmeticLevels.drop 3)
  | 9 => arithmetic g (arithmeticLevels.drop 4)
  | 10 => arithmetic g (arithmeticLevels.drop 5)
  | 11 => power g
  | 12 => unary g
  | _ => postfixed g

/-- The levels below the powers join operands of the next level to the left. -/
theorem operand_at_eq (g : Grammar) (hlow : 1 ≤ level) (hhigh : level ≤ 10) :
    operandAt g level = (do
      let first ← operandAt g (level + 1)
      leftChain (operatorAt level) (operandAt g (level + 1)) g.steps first) := by
  match level with
  | 1 | 2 | 3 | 4 | 5 | 6 | 7 | 8 | 9 | 10 => rfl

/-- An operator is found at its level. -/
theorem yields_operator_at (hlevel : operator.level ≤ 10)
    (hnot : operator = .is → front rest ≠ ⟨.keyword, "not"⟩) :
    Yields (operatorAt operator.level) (operator.pieces ++ rest) (some operator) rest := by
  cases operator with
  | or | and => exact yields_keyword_operator
  | less | greater | lessEqual | greaterEqual | is | isNot | within | notWithin =>
      exact yields_comparison rfl hnot
  | power => exact absurd hlevel (by decide)
  | _ => exact yields_operator_among (by decide)

/-- No operator is found at a level above that of what follows. -/
theorem yields_operator_at_none (hlow : 1 ≤ level) (hhigh : level ≤ 10)
    (h : tightness pieces < level) : Yields (operatorAt level) pieces none pieces := by
  have hsigns {operators : List BinaryOperator}
      (hoperators : ∀ operator ∈ operators,
        operator.pieces = [⟨.op, operator.symbol⟩] ∧ operator.level = level) :
      Yields (operatorAmong operators) pieces none pieces := by
    refine yields_operator_among_none fun operator hmem => ?_
    obtain ⟨hpieces, hlevel⟩ := hoperators operator hmem
    exact front_ne_of_tightness operator hpieces (by omega)
  match level with
  | 1 => exact yields_keyword_operator_none (front_ne_of_tightness .or rfl h)
  | 2 => exact yields_keyword_operator_none (front_ne_of_tightness .and rfl h)
  | 4 => exact yields_comparison_none h
  | 3 | 5 | 6 | 7 | 8 | 9 | 10 => exact hsigns (by decide)

/-! ## Chains -/

/-- A chain ends where something looser follows. -/
theorem yields_chain_end {operand : Parser Expr} {steps : Nat} {expr : Expr} (hlow : 1 ≤ level)
    (hhigh : level ≤ 10) (hsteps : 0 < steps) (h : tightness pieces < level) :
    Yields (leftChain (operatorAt level) operand steps expr) pieces expr pieces := by
  obtain ⟨steps, rfl⟩ := Nat.exists_eq_add_of_lt hsteps
  rw [Nat.zero_add]
  exact (yields_operator_at_none hlow hhigh h).bind (yields_pure expr pieces)

/-- A chain goes on with an operator of its level and its right operand. -/
theorem yields_chain_step {operand : Parser Expr} {steps : Nat} {left right result : Expr}
    {middle after : List Piece} (hlevel : operator.level ≤ 10)
    (hnot : operator = .is → front rest ≠ ⟨.keyword, "not"⟩)
    (hright : Yields operand rest right middle)
    (h : Yields (leftChain (operatorAt operator.level) operand steps (.binary operator left right))
      middle result after) :
    Yields (leftChain (operatorAt operator.level) operand (steps + 1) left)
      (operator.pieces ++ rest) result after :=
  (yields_operator_at hlevel hnot).bind (hright.bind h)

/-- Calls, indices, attributes and variants bind most tightly. -/
theorem front_of_tightness_lt (h : tightness pieces < 13) :
    (front pieces).kind ≠ .lparen ∧ (front pieces).kind ≠ .lbrack ∧
      (front pieces).kind ≠ .dot ∧ front pieces ≠ ⟨.op, "::"⟩ := by
  cases pieces with
  | nil => decide
  | cons piece rest =>
      obtain ⟨kind, text⟩ := piece
      refine ⟨?_, ?_, ?_, ?_⟩
      · rintro ⟨⟩
        exact absurd h (Nat.lt_irrefl 13)
      · rintro ⟨⟩
        exact absurd h (Nat.lt_irrefl 13)
      · rintro ⟨⟩
        exact absurd h (Nat.lt_irrefl 13)
      · rintro ⟨⟩
        exact absurd h (Nat.lt_irrefl 13)

/-- Nothing that follows an expression directly is next. -/
theorem yields_postfix_end {g : Grammar} {steps : Nat} {expr : Expr} (hsteps : 0 < steps)
    (h : tightness pieces < 13) : Yields (postfixChain g steps expr) pieces expr pieces := by
  obtain ⟨steps, rfl⟩ := Nat.exists_eq_add_of_lt hsteps
  rw [Nat.zero_add]
  obtain ⟨hcall, hindex, hdot, hvariant⟩ := front_of_tightness_lt h
  unfold postfixChain
  refine yields_peek fun token hfits => yields_get fun cursor hshows => ?_
  rw [← hfits.kind] at hcall hindex hdot
  have hop : token.isOp "::" = false := (hfits.is_op "::").trans (decide_eq_false hvariant)
  simp only [hcall, hindex, hdot, hop, decide_false, Bool.false_and, Bool.false_eq_true, if_false]
  exact yields_pure expr pieces

end Grammar

end Script
