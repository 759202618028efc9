import Script.Proofs.Parser.Memo

/-!
# Braces that the source leaves unfinished

After an opening brace an expression is tried before a block is read. If the expression comes to
the end of the source, then so does the block, because its first statement is the same expression
again: `block_unfinished`. So no attempt is given up at the end of a source that is read in the
end.
-/

namespace Script

/-- Only the end of the source is described as such. -/
theorem Token.describe_ne_eof {token : Token} (h : token.kind ≠ .eof) :
    token.describe ≠ "EOF" := by
  have hfront : ∃ rest, token.describe.toList = token.kind.label.toList ++ rest := by
    unfold describe
    rw [if_neg h]
    split
    · exact ⟨[], by rw [List.append_nil]⟩
    · exact ⟨_, by simp only [toString, String.toList_append, List.append_assoc]; rfl⟩
  obtain ⟨rest, hrest⟩ := hfront
  intro heof
  rw [heof] at hrest
  cases hkind : token.kind <;> rw [hkind] at hrest h <;> simp [TokenKind.label] at hrest h

namespace Grammar

open Parser

variable {α β : Type} {g : Grammar} {c : Cursor} {M M₁ : BraceMemo} {failure : ParseFailure}

/-- What follows a failure is not read. -/
theorem error_bind {parser : Parser α} (h : parser c M = (.error failure, M₁))
    (next : α → Parser β) : (parser >>= next) c M = (.error failure, M₁) := by
  rw [run_bind, h]

/-- What follows a success is read from where that has ended. -/
theorem ok_bind {parser : Parser α} {result : α} {after : Cursor}
    (h : parser c M = (.ok (result, after), M₁)) (next : α → Parser β) :
    (parser >>= next) c M = next result after M₁ := by
  rw [run_bind, h]

/-- What succeeds has read its first part with success. -/
theorem exists_of_bind_ok {parser : Parser α} {next : α → Parser β} {result : β × Cursor}
    (h : (parser >>= next) c M = (.ok result, M₁)) :
    ∃ first after M₂, parser c M = (.ok (first, after), M₂) ∧
      next first after M₂ = (.ok result, M₁) := by
  rw [run_bind] at h
  split at h
  · rename_i first after M₂ hfirst
    exact ⟨first, after, M₂, hfirst, h⟩
  · cases h

/-- Looking at the next token takes nothing. -/
theorem peek_run (c : Cursor) (M : BraceMemo) : peek c M = (.ok (c.peek, c), M) :=
  rfl

/-! ## Where no expression starts -/

/-- A semicolon, or what the language has reserved. -/
def isRefused (token : Token) : Bool :=
  token.kind = .semi || token.kind = .atSign || token.isKeyword "async" || token.isKeyword "await"

/-- What is not reserved is not refused for being so. -/
theorem reject_reserved_run (hat : c.peek.kind ≠ .atSign)
    (hword : (c.peek.isKeyword "async" || c.peek.isKeyword "await") = false) :
    rejectReserved c M = (.ok ((), c), M) := by
  show (if c.peek.kind = .atSign then _
    else if (c.peek.isKeyword "async" || c.peek.isKeyword "await") = true then _ else _ :
      Parser Unit) c M = _
  rw [if_neg hat, hword, if_neg (by decide)]
  rfl

/-- No expression starts with a token that is refused. -/
theorem primary_refused (h : isRefused c.peek = true) :
    ∃ detail expected, primary g c M =
      (.error (.wrong ⟨detail, c.peek.pos, c.peek.stop, expected, c.peek.describe⟩), M) := by
  by_cases hat : c.peek.kind = .atSign
  · refine ⟨"Decorators are not supported", [], error_bind ?_ _⟩
    show (if c.peek.kind = .atSign then _ else _ : Parser Unit) c M = _
    rw [if_pos hat]
    rfl
  by_cases hword : (c.peek.isKeyword "async" || c.peek.isKeyword "await") = true
  · refine ⟨s!"'{c.peek.text}' is not supported", [], error_bind ?_ _⟩
    show (if c.peek.kind = .atSign then _
      else if (c.peek.isKeyword "async" || c.peek.isKeyword "await") = true then _ else _ :
        Parser Unit) c M = _
    rw [if_neg hat, if_pos hword]
    rfl
  · rw [Bool.not_eq_true] at hword
    have hsemi : c.peek.kind = .semi := by
      simpa [isRefused, hat, Bool.or_assoc, hword] using h
    refine ⟨"Unexpected token", expressionStarts, ?_⟩
    rw [primary, ok_bind (reject_reserved_run hat hword), ok_bind (peek_run c M), hsemi]
    rfl

/-- A failure of the operand is one of the operators around it. -/
theorem disjunction_of_primary (hunary : unaryOperator? c.peek = none)
    (h : primary g c M = (.error failure, M₁)) : disjunction g c M = (.error failure, M₁) := by
  have hpostfixed : unary g c M = postfixed g c M := by
    rw [unary, ok_bind (peek_run c M), hunary]
  have hunary : unary g c M = (.error failure, M₁) := by
    rw [hpostfixed]
    exact error_bind h _
  have hpower : power g c M = (.error failure, M₁) := error_bind hunary _
  have harithmetic (levels : List (List BinaryOperator)) :
      arithmetic g levels c M = (.error failure, M₁) := by
    induction levels with
    | nil => exact hpower
    | cons operators tighter ih => exact error_bind ih _
  exact error_bind (error_bind (error_bind (error_bind (harithmetic _) _) _) _) _

/-- No operator starts with a token that is refused. -/
theorem unary_operator_refused {token : Token} (h : isRefused token = true) :
    unaryOperator? token = none := by
  unfold isRefused at h
  unfold unaryOperator? Token.isKeyword Token.isOp
  simp only [Token.isKeyword, Bool.or_eq_true, Bool.and_eq_true, decide_eq_true_eq, beq_iff_eq] at h
  rcases h with ((hkind | hkind) | ⟨hkind, htext⟩) | ⟨hkind, htext⟩
  · simp [hkind]
  · simp [hkind]
  · simp [hkind, htext]
  · simp [hkind, htext]

/-- An expression that the end of the source cuts short does not start with what is refused. -/
theorem not_refused_of_starved {error : ParseError}
    (h : disjunction g c M = (.error (.wrong error), M₁)) (hfound : error.found = "EOF") :
    isRefused c.peek = false := by
  rw [← Bool.not_eq_true]
  intro hrefused
  obtain ⟨detail, expected, hprimary⟩ := primary_refused (g := g) (M := M) hrefused
  rw [disjunction_of_primary (unary_operator_refused hrefused) hprimary] at h
  cases h
  have heof : c.peek.kind ≠ .eof := by
    intro heof
    simp [isRefused, Token.isKeyword, heof] at hrefused
  exact Token.describe_ne_eof heof hfound

/-! ## Blocks -/

/-- A statement that no keyword of its own starts is an expression. -/
theorem statement_run (hrefused : isRefused c.peek = false)
    (hkeyword : (c.peek.kind = .keyword && statementKeywords.contains c.peek.text) = false) :
    statement g c M = expression g c M := by
  simp only [isRefused, Bool.or_eq_false_iff, decide_eq_false_iff_not] at hrefused
  obtain ⟨⟨⟨-, hat⟩, hasync⟩, hawait⟩ := hrefused
  rw [statement, ok_bind (reject_reserved_run hat (by rw [hasync, hawait]; rfl))]
  show (if c.peek.kind = .keyword then _ else _ : Parser Expr) c M = _
  split
  · rename_i hword
    simp only [hword, decide_true, Bool.true_and, statementKeywords] at hkeyword
    generalize c.peek.text = text at hkeyword
    split
    case h_17 => rfl
    all_goals exact absurd hkeyword (by decide)
  · rfl

/-- A token that is there is taken. -/
theorem expect_run {kind : TokenKind} (h : c.peek.kind = kind) :
    Parser.expect kind c M = (.ok (c.peek, c.advance), M) := by
  show (if c.peek.kind = kind then _ else _ : Parser Token) c M = _
  rw [if_pos h]
  rfl

/-- A token that is not there is missed. -/
theorem expect_missed {kind : TokenKind} (h : c.peek.kind ≠ kind) :
    ∃ error : ParseError, error.found = c.peek.describe ∧
      Parser.expect kind c M = (.error (.wrong error), M) := by
  refine ⟨⟨"Unexpected token", c.peek.pos, c.peek.stop, [kind.label], c.peek.describe⟩, rfl, ?_⟩
  show (if c.peek.kind = kind then _ else _ : Parser Token) c M = _
  rw [if_neg h]
  rfl

/-- Nothing is skipped at a token of another class. -/
theorem skip_kinds_stays {kinds : List TokenKind} (h : c.peek.kind ∉ kinds) (steps : Nat) :
    skipKinds kinds steps c M = (.ok ((), c), M) := by
  cases steps with
  | zero => rfl
  | succ steps =>
      show (if kinds.contains c.peek.kind then _ else _ : Parser Unit) c M = _
      rw [if_neg (by simpa using h)]
      rfl

/-- A block that the source ends in is not closed. -/
theorem block_at_end (hbrace : c.peek.kind = .lbrace) (hend : c.advance.peek.kind = .eof)
    (hsteps : 0 < g.steps) :
    ∃ error : ParseError, error.found = "EOF" ∧ block g c M = (.error (.wrong error), M) := by
  obtain ⟨steps, hsucc⟩ := Nat.exists_eq_add_one.mpr hsteps
  have hclosing : c.advance.peek.kind ≠ .rbrace := by rw [hend]; decide
  obtain ⟨error, hfound, hmissed⟩ := expect_missed (M := M) hclosing
  refine ⟨error, hfound.trans (if_pos hend), ?_⟩
  rw [block, ok_bind (expect_run hbrace), separators,
    ok_bind (skip_kinds_stays (by rw [hend]; decide) _), hsucc,
    ok_bind (Simulation.items_until_eof (by decide) _ _ _ _ hend M)]
  exact error_bind hmissed _

/-- A block fails as its first statement does. -/
theorem block_of_statement (hbrace : c.peek.kind = .lbrace)
    (hnext : c.advance.peek.kind ∉ [TokenKind.semi, .rbrace, .eof]) (hsteps : 0 < g.steps)
    (h : g.parse .statement c.advance M = (.error failure, M₁)) :
    block g c M = (.error failure, M₁) := by
  simp only [List.mem_cons, List.not_mem_nil, or_false, not_or] at hnext
  obtain ⟨hsemi, hclosing, heof⟩ := hnext
  obtain ⟨steps, hsucc⟩ := Nat.exists_eq_add_one.mpr hsteps
  rw [block, ok_bind (expect_run hbrace), separators,
    ok_bind (skip_kinds_stays (by simpa using hsemi) _), hsucc]
  refine error_bind ?_ _
  show (if [TokenKind.rbrace, .eof].contains c.advance.peek.kind then _ else _ :
    Parser (List Expr)) c.advance M = _
  rw [if_neg (by simp [hclosing, heof])]
  exact error_bind h _

end Grammar

namespace Simulation

open Grammar Cursor

/-- If the expression after a brace comes to the end of the source, then so does the block that the
brace may start instead, unless it is nested too deeply. -/
theorem block_unfinished {tokens : List Token} {steps depth : Nat} {c : Cursor}
    {M M₁ : BraceMemo} {error : ParseError} (htrack : OnTrack tokens c)
    (hsteps : c.rest.length < steps) (htried : Tried c) (hmemo : Faithful tokens steps M)
    (hrun : (within true steps depth).parse .disjunction c.advance M =
      (.error (.wrong error), M₁))
    (hfound : error.found = "EOF") (hmemo₁ : Faithful tokens steps M₁) :
    (∃ error M₂, error.found = "EOF" ∧ Faithful tokens steps M₂ ∧
        blockExpr (within true steps depth) c M₁ = (.error (.wrong error), M₂)) ∨
      ∃ M₂, blockExpr (within true steps depth) c M₁ = (.error .tooDeep, M₂) := by
  have hpos : 0 < (within true steps depth).steps := Nat.zero_lt_of_lt hsteps
  have hopen : c.peek.kind ≠ .eof := by rw [htried.brace]; decide
  have hlength := Cursor.length_advance hopen
  have hsecond := Cursor.peek_advance hopen
  by_cases hend : c.advance.peek.kind = .eof
  · obtain ⟨error, hfound, hblock⟩ := block_at_end (M := M₁) htried.brace hend hpos
    exact .inl ⟨error, M₁, hfound, hmemo₁, error_bind hblock _⟩
  cases depth with
  | zero => cases hrun
  | succ depth =>
      have hdisjunction : disjunction (within true steps depth) c.advance M =
          (.error (.wrong error), M₁) := hrun
      have hrefused := not_refused_of_starved hdisjunction hfound
      have hnext : c.advance.peek.kind ∉ [TokenKind.semi, .rbrace, .eof] := by
        have hsemi : c.advance.peek.kind ≠ .semi := by
          intro hsemi
          simp [isRefused, hsemi] at hrefused
        have hclosing : c.advance.peek.kind ≠ .rbrace := hsecond ▸ htried.nonempty
        simp [hsemi, hend, hclosing]
      -- The first statement of the block is the same expression, with more remembered.
      have hstatement (M : BraceMemo) : (within true steps (depth + 1)).parse .statement c.advance M
          = expression (within true steps depth) c.advance M :=
        statement_run hrefused (hsecond ▸ htried.noKeyword)
      have hfewer : c.advance.rest.length < steps := by omega
      have hplain : (parserOf false steps (c.advance.rest.length + 1) .disjunction c.advance []).1
          = .error (.wrong error) := by
        obtain ⟨_, hfirst, -⟩ | ⟨_, hfirst⟩ :=
          parser_of_run hfewer htrack.advance true (depth + 1) .disjunction hmemo
        · exact congrArg Prod.fst (hfirst.symm.trans hrun)
        · cases hfirst.symm.trans hrun
      obtain ⟨M₂, hagain, hmemo₂⟩ | ⟨M₂, hagain⟩ :=
        parser_of_run hfewer htrack.advance true (depth + 1) .disjunction hmemo₁
      · rw [hplain] at hagain
        refine .inl ⟨error, M₂, hfound, hmemo₂, error_bind ?_ _⟩
        exact block_of_statement htried.brace hnext hpos ((hstatement M₁).trans
          (error_bind hagain _))
      · refine .inr ⟨M₂, error_bind ?_ _⟩
        exact block_of_statement htried.brace hnext hpos ((hstatement M₁).trans
          (error_bind hagain _))

end Simulation

end Script
