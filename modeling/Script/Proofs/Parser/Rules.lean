import Script.Proofs.Parser.Simulation

/-!
# Rules that do the same

If the parsers of the nonterminals one level deeper do the same in two grammars, then so do the
rules of the two grammars. Every rule takes a token before it descends; `SimilarBraces.rule`
collects the rules of all nonterminals.
-/

namespace Script.Grammar

open Parser

/-- The attribute of an object, which is a field if the object is the receiver of a method. -/
def attributeOf (object : Expr) (name : String) : Expr :=
  match object with
  | .name "self" => .ownField object name
  | _ => .getAttribute object name

theorem attribute_of_other {object : Expr} (h : object ≠ .name "self") (name : String) :
    attributeOf object name = .getAttribute object name := by
  unfold attributeOf
  split
  · exact (h rfl).elim
  · rfl

/-- What follows the name of an attribute: the arguments of a method call, or nothing. -/
def attributeEnd (g : Grammar) (object : Expr) (name : String) : Parser Expr := do
  if (← peek).kind = .lparen && (← get).onSameLine then
    return .methodCall object name (← callArguments g)
  else return attributeOf object name

/-- What follows a dot is a name and what follows that. -/
theorem attribute_access_eq (g : Grammar) (object : Expr) :
    attributeAccess g object = (do
      let token ← peek
      if token.kind ≠ .name && token.kind ≠ .keyword then
        unexpected token [TokenKind.name.label]
      let _ ← advance
      attributeEnd g object token.text) := by
  unfold attributeAccess attributeEnd
  split
  · rfl
  next hself => simp only [attribute_of_other hself]

/-- One link of a chain, if there is one: the expression that it makes of the one before it. -/
def postfixLink? (g : Grammar) (expr : Expr) : Parser (Option Expr) := do
  let token ← peek
  let sameLine := (← get).onSameLine
  if token.kind = .lparen && sameLine then
    return some (.call expr (← callArguments g))
  else if token.kind = .lbrack && sameLine then
    let _ ← advance
    let index ← g.parse .expression
    let _ ← expect .rbrack
    return some (.index expr index)
  else if token.kind = .dot then
    let _ ← advance
    return some (← attributeAccess g expr)
  else if token.isOp "::" then
    match expr with
    | .name enumName =>
      let _ ← advance
      return some (.enumVariant enumName (← expectName))
    | _ => return none
  else return none

/-- A chain is one link after the other. -/
theorem postfix_chain_succ (g : Grammar) (steps : Nat) (expr : Expr) :
    postfixChain g (steps + 1) expr = (do
      match ← postfixLink? g expr with
      | some next => postfixChain g steps next
      | none => return expr) := by
  conv => lhs; unfold postfixChain
  unfold postfixLink?
  simp only [bind_assoc]
  congr 1; funext token
  congr 1; funext cursor
  split
  · simp
  split
  · simp
  split
  · simp
  split
  · split <;> simp
  · simp

end Script.Grammar

namespace Script.Simulation

open Script.Parser Grammar

/-- The place of a brace that is first read as a dictionary or a set: neither a closing brace nor a
statement with a keyword of its own follows. -/
structure Tried (c : Cursor) : Prop where
  brace : c.peek.kind = .lbrace
  nonempty : c.peekSecond.kind ≠ .rbrace
  noKeyword :
    (c.peekSecond.kind = .keyword && statementKeywords.contains c.peekSecond.text) = false

/-- A block, as an expression. -/
def blockExpr (g : Grammar) : Parser Expr := do
  return .block (← Grammar.block g)

/-- The deeper parsers of two grammars do the same, and the steps of every loop suffice for `n`
tokens. So do the levels below, on the left unless it may be short of them, and on the right unless
there are as many as on the left. If reading a brace as a dictionary or a set comes to the end of
the left row, then so does reading it again as a block. -/
structure Similar (S : Simulation) (n : Nat) (g g' : Grammar) : Prop where
  parse (nonterminal : Nonterminal) {k : Nat} {c c' : Cursor} : S.Near n k c c' → 1 ≤ k →
    S.Simulates c c' (g.parse nonterminal) (g'.parse nonterminal) (S.After n (k + 1))
  lt_steps : n < g.steps
  lt_steps' : n < g'.steps
  le_depth : S.shallow ∨ n ≤ g.depth
  le_depth' : g.depth ≤ g'.depth ∨ n ≤ g'.depth
  retry {k : Nat} {c c' : Cursor} {M M₁ : BraceMemo} {error : ParseError} : S.goesOn →
    S.Near n k c c' → Tried c → S.kept M →
    g.parse .disjunction c.advance M = (.error (.wrong error), M₁) → error.found = "EOF" →
    S.kept M₁ → S.Fails (blockExpr g c M₁)

/-- What a brace starts is the same in both grammars as well. -/
structure SimilarBraces (S : Simulation) (n : Nat) (g g' : Grammar) : Prop extends
    Similar S n g g' where
  braced {k : Nat} {c c' : Cursor} : S.Near n k c c' → c.peek.kind = .lbrace →
    S.Simulates c c' (braced g) (braced g') (S.After n (k + 1))

variable {S : Simulation} {n k : Nat} {c c' : Cursor} {g g' : Grammar}

/-- What is reserved is refused, and nothing is taken. -/
theorem reject_reserved (h : S.Near n k c c') :
    S.Simulates c c' rejectReserved rejectReserved (S.After n k) := by
  have htoken := h.peek
  refine .peek (.ite (htoken.kind_iff (by decide)) (fun _ => .fail htoken _ _) fun _ => ?_)
  refine .ite (by rw [is_keyword_eq htoken, is_keyword_eq htoken]) (fun hword => ?_) fun _ => ?_
  · have heof : c.peek.kind ≠ .eof := by
      intro heof
      simp [Token.isKeyword, heof] at hword
    rw [S.text_eq (htoken.token heof)]
    exact .fail htoken _ _
  · exact .pure ⟨rfl, h⟩

/-- At the end of its row, the first parser misses any token. -/
theorem expect_dry {kind : TokenKind} {M : BraceMemo} (hkind : kind ≠ .eof) (h : S.Dry c)
    (hkept : S.kept M) : S.Fails (Parser.expect kind c M) := by
  have hrefused : Parser.expect kind c M =
      failAt c.peek "Unexpected token" [kind.label] c M := by
    show (if c.peek.kind = kind then _ else _ : Parser Token) c M = _
    rw [h.2, if_neg (Ne.symm hkind)]
    rfl
  rw [hrefused]
  exact .starved h.1 (if_pos h.2) hkept

/-- Names each preceded by a dot. -/
theorem dotted_names {steps steps' : Nat} (done : List String) (h : S.Near n k c c')
    (hsteps : n < steps + k) (hsteps' : n < steps' + k) :
    S.Simulates c c' (dottedNames steps done) (dottedNames steps' done) (S.After n k) := by
  induction steps generalizing steps' k c c' done with
  | zero => exact absurd (h.steps_pos hsteps) (by simp)
  | succ steps ih =>
      obtain ⟨steps', rfl⟩ := h.steps_pos hsteps'
      refine .branch (accept h (by decide)) (fun d d' hd => ?_) fun d d' hd => .pure ⟨rfl, hd⟩
      refine .then_eq (expect_name hd) fun name e e' he => ?_
      exact (ih _ he (by omega) (by omega)).weaken (Nat.le_add_right k 2)

/-- The unary operator that a token writes is that of its class and text. -/
theorem unary_operator_eq {t t' : Token} (h : S.Meets t t') :
    unaryOperator? t = unaryOperator? t' := by
  simp only [unaryOperator?, is_op_eq h, is_keyword_eq h]

/-- An operator among some. -/
theorem operator_among (operators : List BinaryOperator) (h : S.Near n k c c') :
    S.Simulates c c' (operatorAmong operators) (operatorAmong operators)
      (S.AfterIf Option.isSome n k) := by
  refine .peek ?_
  simp only [is_op_eq h.peek]
  cases hfound : operators.find? fun operator => c'.peek.isOp operator.symbol with
  | none => exact .pure ⟨rfl, h⟩
  | some operator =>
      have hop : c.peek.isOp operator.symbol = true := by
        simpa [is_op_eq h.peek] using List.find?_some hfound
      exact .advance (.pure ⟨rfl, h.advance (kind_ne_eof_of_is_op hop)⟩)

/-- An operator that is a keyword. -/
theorem keyword_operator (operator : BinaryOperator) (h : S.Near n k c c') :
    S.Simulates c c' (keywordOperator operator) (keywordOperator operator)
      (S.AfterIf Option.isSome n k) :=
  .branch (accept_keyword h) (fun _ _ hd => .pure ⟨rfl, hd⟩) fun _ _ hd => .pure ⟨rfl, hd⟩

/-- The operator of a comparison. -/
theorem comparison_operator (h : S.Near n k c c') :
    S.Simulates c c' comparisonOperator? comparisonOperator? (S.AfterIf Option.isSome n k) := by
  refine .bind (operator_among _ h) ?_
  rintro found _ d d' ⟨rfl, hd⟩
  cases found with
  | some operator => exact .pure ⟨rfl, hd⟩
  | none =>
      refine .branch (accept_keyword hd) ?_ ?_
      · intro e e' he
        refine .branch (accept_keyword he) ?_ ?_
        · exact fun _ _ hlast => .pure ⟨rfl, hlast.mono (Nat.le_succ _)⟩
        · exact fun _ _ hlast => .pure ⟨rfl, hlast⟩
      · intro e e' he
        refine .branch (accept_keyword he) (fun _ _ hlast => .pure ⟨rfl, hlast⟩) ?_
        intro f f' hf
        refine .peek (.get (.ite ?_ ?_ fun _ => .pure ⟨rfl, hf⟩))
        · rw [← is_keyword_eq hf.peek]
          cases hnot : f.peek.isKeyword "not" with
          | false => simp only [Bool.false_and]
          | true => rw [is_keyword_eq (hf.peek_second (kind_ne_eof_of_is_keyword hnot))]
        · intro hboth
          obtain ⟨hnot, hin⟩ := Bool.and_eq_true_iff.1 hboth
          have heof := kind_ne_eof_of_is_keyword hnot
          have hone := hf.advance heof
          have htwo := hone.advance (Cursor.peek_advance heof ▸ kind_ne_eof_of_is_keyword hin)
          exact .advance (.advance (.pure ⟨rfl, htwo.mono (Nat.le_succ _)⟩))

namespace Similar

/-- The steps of a loop suffice on the left. -/
theorem lt_add (hg : Similar S n g g') : n < g.steps + k :=
  Nat.lt_add_right k hg.lt_steps

/-- The steps of a loop suffice on the right. -/
theorem lt_add' (hg : Similar S n g g') : n < g'.steps + k :=
  Nat.lt_add_right k hg.lt_steps'

/-- The levels below suffice on the left once a token has been taken, or may be too few. -/
theorem lt_depth (hg : Similar S n g g') (hk : 1 ≤ k) : S.shallow ∨ n < g.depth + k :=
  hg.le_depth.imp_right fun hle => by omega

/-- The levels below suffice on the right once a token has been taken, or are as many as on the
left. -/
theorem lt_depth' (hg : Similar S n g g') (hk : 1 ≤ k) :
    g.depth ≤ g'.depth ∨ n < g'.depth + k :=
  hg.le_depth'.imp_right fun hle => by omega

/-- Any number of semicolons. -/
theorem separators (hg : Similar S n g g') (h : S.Near n k c c') :
    S.Simulates c c' (separators g) (separators g') (S.Paused n k) :=
  skip_kinds (by decide) h hg.lt_add hg.lt_add'

/-- The name of a type, for which as many levels as tokens suffice. -/
theorem type_name (hg : Similar S n g g') {depth depth' : Nat} (h : S.Near n k c c')
    (hdepth : S.shallow ∨ n < depth + k) (hdepth' : depth ≤ depth' ∨ n < depth' + k) :
    S.Simulates c c' (typeName g depth) (typeName g' depth') (S.After n (k + 1)) := by
  have hbound := h.bound
  induction depth generalizing depth' k c c' with
  | zero =>
      obtain hshallow | hdepth := hdepth
      · exact .too_deep hshallow _
      · omega
  | succ depth ih =>
      obtain ⟨depth', rfl⟩ := Nat.exists_eq_add_one.mpr (show 0 < depth' by omega)
      have htoken := h.peek
      refine .peek ?_
      dsimp only
      refine .ite (by rw [htoken.no_word_eq]) (fun _ => .fail_then htoken _ _) fun hword => ?_
      have heof : c.peek.kind ≠ .eof := by
        intro heof
        simp [heof] at hword
      refine .advance ?_
      rw [S.text_eq (htoken.token heof)]
      have hone := h.advance heof
      refine .branch (accept hone (by decide)) ?_ fun d d' hd => .pure ⟨rfl, hd⟩
      intro d d' hd
      -- A level has been used up on both sides, but a token has been taken as well.
      have hdeeper {j : Nat} (hj : k + 1 ≤ j) : S.shallow ∨ n < depth + j :=
        hdepth.imp_right fun hlt => by omega
      have hdeeper' {j : Nat} (hj : k + 1 ≤ j) : depth ≤ depth' ∨ n < depth' + j :=
        hdepth'.imp (fun hle => by omega) fun hlt => by omega
      refine .then_eq (ih hd (hdeeper (by omega)) (hdeeper' (by omega)) hd.bound)
        fun first e e' he => ?_
      refine .then_eq (comma_tail (by decide) [first] he hg.lt_add hg.lt_add' fun j _ _ hle hj =>
        ih hj (hdeeper (by omega)) (hdeeper' (by omega)) hj.bound) fun parameters e e' he => ?_
      refine .skip (expect he (by decide)) fun f f' hf => ?_
      exact .pure ⟨rfl, hf.mono (by omega)⟩

/-- The type after a colon. -/
theorem type_after_colon (hg : Similar S n g g') (h : S.Near n k c c') :
    S.Simulates c c' (typeAfterColon? g) (typeAfterColon? g') (S.After n k) := by
  refine .branch (accept h (by decide)) ?_ fun d d' hd => .pure ⟨rfl, hd⟩
  intro d d' hd
  refine .then_eq (hg.type_name hd (hg.lt_depth (by omega)) (hg.lt_depth' (by omega)))
    fun name e e' he => ?_
  exact .pure ⟨rfl, he.mono (Nat.le_add_right k 2)⟩

/-- Items up to a closing brace. At the end of its row, the left parser misses the brace. -/
theorem items_then_brace (hg : Similar S n g g') {α β : Type} {separate separate' : Parser Unit}
    {item item' : Parser α} (result : List α → β) (h : S.Paused n k () () c c')
    (hseparate : ∀ j d d', k ≤ j → S.Near n j d d' →
      S.Simulates d d' separate separate' (S.Paused n j))
    (hitem : ∀ j d d', k ≤ j → S.Near n j d d' →
      S.Simulates d d' item item' (S.After n (j + 1))) :
    S.Simulates c c'
      (itemsUntil [.rbrace, .eof] separate item g.steps [] >>= fun items => do
        let _ ← Parser.expect .rbrace
        return result items)
      (itemsUntil [.rbrace, .eof] separate' item' g'.steps [] >>= fun items => do
        let _ ← Parser.expect .rbrace
        return result items)
      (S.After n (k + 1)) := by
  refine items_until_then (by decide) h (Nat.zero_lt_of_lt hg.lt_steps) hg.lt_add hg.lt_add'
    hseparate hitem ?_ ?_
  · intro items d d' hd
    refine .skip (expect hd (by decide)) fun e e' he => ?_
    exact .pure ⟨rfl, he⟩
  · intro items d M hdry hkept
    rw [run_bind]
    exact .bind _ (expect_dry (by decide) hdry hkept)

/-- Statements between braces. -/
theorem block (hg : Similar S n g g') (h : S.Near n k c c') :
    S.Simulates c c' (block g) (block g') (S.After n (k + 1)) := by
  refine .skip (expect h (by decide)) fun d d' hd => ?_
  refine .bind (hg.separators hd) fun _ _ e e' he => ?_
  refine (hg.items_then_brace id he (fun _ _ _ _ hj => hg.separators hj)
    fun _ _ _ hle hj => hg.parse .statement hj (by omega)).weaken (Nat.le_succ _)

/-- A name bound to a value, with or without a type. -/
theorem let_bind (hg : Similar S n g g') (h : S.Near n k c c') :
    S.Simulates c c' (letBind g) (letBind g') (S.After n (k + 1)) := by
  refine .skip (expect_keyword h) fun d d' hd => ?_
  refine .then_eq (expect_name hd) fun name e e' he => ?_
  refine .then_eq (hg.type_after_colon he) fun declared d d' hd => ?_
  refine .skip (expect_op hd) fun e e' he => ?_
  refine .then_eq (hg.parse .expression he (by omega)) fun value d d' hd => ?_
  cases declared with
  | none => exact .pure ⟨rfl, hd.mono (by omega)⟩
  | some typeName => exact .pure ⟨rfl, hd.mono (by omega)⟩

/-- A name bound to a value for good. -/
theorem const_bind (hg : Similar S n g g') (h : S.Near n k c c') :
    S.Simulates c c' (constBind g) (constBind g') (S.After n (k + 1)) := by
  refine .skip (expect_keyword h) fun d d' hd => ?_
  refine .then_eq (expect_name hd) fun name e e' he => ?_
  refine .then_eq (hg.type_after_colon he) fun _ d d' hd => ?_
  refine .skip (expect_op hd) fun e e' he => ?_
  refine .then_eq (hg.parse .expression he (by omega)) fun value d d' hd => ?_
  exact .pure ⟨rfl, hd.mono (by omega)⟩

/-- A conditional. -/
theorem conditional (hg : Similar S n g g') (h : S.Near n k c c') :
    S.Simulates c c' (conditional g) (conditional g') (S.After n (k + 1)) := by
  refine .skip (expect_keyword h) fun d d' hd => ?_
  refine .then_eq (hg.parse .disjunction hd (by omega)) fun condition e e' he => ?_
  refine .then_eq (hg.block he) fun thenBody d d' hd => ?_
  refine .branch (accept_keyword hd) ?_ fun e e' he => .pure ⟨rfl, he.mono (by omega)⟩
  intro e e' he
  refine .peek (.ite (by rw [is_keyword_eq he.peek]) ?_ ?_)
  · intro _
    refine .then_eq (hg.parse .conditional he (by omega)) fun branch d d' hd => ?_
    exact .pure ⟨rfl, hd.mono (by omega)⟩
  · intro _
    refine .then_eq (hg.block he) fun branch d d' hd => ?_
    exact .pure ⟨rfl, hd.mono (by omega)⟩

/-- A `while` loop. -/
theorem while_loop (hg : Similar S n g g') (h : S.Near n k c c') :
    S.Simulates c c' (whileLoop g) (whileLoop g') (S.After n (k + 1)) := by
  refine .skip (expect_keyword h) fun d d' hd => ?_
  refine .then_eq (hg.parse .disjunction hd (by omega)) fun condition e e' he => ?_
  refine .then_eq (hg.block he) fun body d d' hd => ?_
  exact .pure ⟨rfl, hd.mono (by omega)⟩

/-- A `for` loop. -/
theorem for_loop (hg : Similar S n g g') (h : S.Near n k c c') :
    S.Simulates c c' (forLoop g) (forLoop g') (S.After n (k + 1)) := by
  refine .skip (expect_keyword h) fun d d' hd => ?_
  refine .then_eq (expect_name hd) fun binder e e' he => ?_
  refine .skip (expect_keyword he) fun d d' hd => ?_
  refine .then_eq (hg.parse .disjunction hd (by omega)) fun iterable e e' he => ?_
  refine .then_eq (hg.block he) fun body d d' hd => ?_
  exact .pure ⟨rfl, hd.mono (by omega)⟩

/-- Distinct parameter names. -/
theorem parameters (hg : Similar S n g g') {steps steps' : Nat} (done : List String)
    (h : S.Near n k c c') (hsteps : n < steps + k) (hsteps' : n < steps' + k) :
    S.Simulates c c' (parameters g steps done) (parameters g' steps' done) (S.After n k) := by
  induction steps generalizing steps' k c c' done with
  | zero => exact absurd (h.steps_pos hsteps) (by simp)
  | succ steps ih =>
      obtain ⟨steps', rfl⟩ := h.steps_pos hsteps'
      refine .peek (.ite (h.peek.kind_iff (by decide)) (fun _ => .pure ⟨rfl, h⟩) fun _ => ?_)
      refine .bind (expect h (by decide)) ?_
      rintro t t' d d' ⟨htoken, hd⟩
      dsimp only
      rw [S.text_eq htoken]
      refine .ite Iff.rfl (fun _ => .fail_then (.same htoken) _ _) fun _ => ?_
      refine .then_eq (hg.type_after_colon hd) fun _ e e' he => ?_
      refine .branch (accept he (by decide)) ?_ fun f f' hf => .pure ⟨rfl, hf.mono (by omega)⟩
      intro f f' hf
      exact (ih _ hf (by omega) (by omega)).weaken (Nat.le_add_right k 2)

/-- The body of a function. -/
theorem function_body (hg : Similar S n g g') (name : String) (names : List String)
    (h : S.Near n k c c') :
    S.Simulates c c'
      (do Grammar.separators g; return Expr.defineFunction name names (← Grammar.block g))
      (do Grammar.separators g'; return Expr.defineFunction name names (← Grammar.block g'))
      (S.After n (k + 1)) := by
  refine .bind (hg.separators h) fun _ _ d d' hd => ?_
  obtain hd | hdry := hd
  · refine .then_eq (hg.block hd) fun body e e' he => ?_
    exact .pure ⟨rfl, he⟩
  · -- At the end of its row, the left parser misses the opening brace.
    intro M M' hmemo
    rw [run_bind]
    refine .fails _ (.bind _ ?_)
    rw [Grammar.block, run_bind]
    exact .bind _ (expect_dry (by decide) hdry (S.kept_of_memo hmemo))

/-- A function. -/
theorem function_definition (hg : Similar S n g g') (h : S.Near n k c c') :
    S.Simulates c c' (functionDefinition g) (functionDefinition g') (S.After n (k + 1)) := by
  refine .skip (expect_keyword h) fun d d' hd => ?_
  refine .then_eq (expect_name hd) fun name e e' he => ?_
  refine .skip (expect he (by decide)) fun d d' hd => ?_
  refine .then_eq (hg.parameters [] hd hg.lt_add hg.lt_add') fun names e e' he => ?_
  refine .skip (expect he (by decide)) fun d d' hd => ?_
  refine .peek ?_
  dsimp only
  refine .ite (by rw [is_op_eq hd.peek]) ?_
    fun _ => (hg.function_body name names hd).weaken (by omega)
  intro hop
  have hone := hd.advance (kind_ne_eof_of_is_op hop)
  refine .advance (.then_eq
    (hg.type_name hone (hg.lt_depth (by omega)) (hg.lt_depth' (by omega))) fun _ e e' he => ?_)
  exact (hg.function_body name names he).weaken (by omega)

/-- A `return`, whose value has to start on its line. -/
theorem return_statement (hg : Similar S n g g') (h : S.Near n k c c') :
    S.Simulates c c' (returnStatement g) (returnStatement g') (S.After n (k + 1)) := by
  -- The line of the keyword matters, so it has to be known which token was taken.
  refine .bind (take_here (·.isKeyword "return") _ h (is_keyword_eq h.peek _)) ?_
  rintro t t' d d' ⟨hword, heq, heq'⟩
  cases heq
  cases heq'
  have hone := h.advance (kind_ne_eof_of_is_keyword hword)
  refine .peek (.ite ?_ (fun _ => .pure ⟨rfl, hone⟩) fun _ => ?_)
  · by_cases heof : c.advance.peek.kind = .eof
    · -- No value can follow at the end of the row, nor before a semicolon.
      cases hone.peek with
      | same htoken => simp [heof, ← S.kind_eq htoken]
      | ended _ _ hsemi => simp [heof, hsemi]
    · have hline := S.return_line h.place hword heof
      simp only [S.kind_eq (hone.peek.token heof), Bool.or_eq_true, decide_eq_true_eq, ne_eq, hline]
  · refine .then_eq (hg.parse .expression hone (by omega)) fun value e e' he => ?_
    exact .pure ⟨rfl, he.mono (by omega)⟩

/-- An arm of a `match`. -/
theorem match_arm (hg : Similar S n g g') (h : S.Near n k c c') (hk : 1 ≤ k) :
    S.Simulates c c' (matchArm g) (matchArm g') (S.After n (k + 1)) := by
  refine .then_eq (hg.parse .disjunction h hk) fun pattern d d' hd => ?_
  refine .skip (expect_op hd) fun e e' he => ?_
  refine .then_eq (hg.parse .statement he (by omega)) fun result d d' hd => ?_
  exact .pure ⟨rfl, hd.mono (by omega)⟩

/-- A `match`. -/
theorem match_statement (hg : Similar S n g g') (h : S.Near n k c c') :
    S.Simulates c c' (matchStatement g) (matchStatement g') (S.After n (k + 1)) := by
  refine .skip (expect_keyword h) fun d d' hd => ?_
  refine .then_eq (hg.parse .disjunction hd (by omega)) fun subject e e' he => ?_
  refine .skip (expect he (by decide)) fun d d' hd => ?_
  exact (hg.items_then_brace (Expr.matchOn subject) (.inl hd)
    (fun _ _ _ _ hj => skip_kinds (by decide) hj hg.lt_add hg.lt_add')
    fun _ _ _ hle hj => hg.match_arm hj (by omega)).weaken (by omega)

/-- A `try` with its handler. -/
theorem try_catch (hg : Similar S n g g') (h : S.Near n k c c') :
    S.Simulates c c' (tryCatch g) (tryCatch g') (S.After n (k + 1)) := by
  refine .skip (expect_keyword h) fun d d' hd => ?_
  refine .then_eq (hg.block hd) fun body e e' he => ?_
  refine .skip (expect_keyword he) fun d d' hd => ?_
  refine .peek (.ite (hd.peek.kind_iff (by decide)) ?_ ?_)
  · intro hname
    have heof : d.peek.kind ≠ .eof := by rw [hname]; decide
    have hone := hd.advance heof
    refine .advance ?_
    dsimp only
    rw [S.text_eq (hd.peek.token heof)]
    refine .then_eq (hg.block hone) fun handler e e' he => ?_
    exact .pure ⟨rfl, he.mono (by omega)⟩
  · intro _
    refine .then_eq (hg.block hd) fun handler e e' he => ?_
    exact .pure ⟨rfl, he.mono (by omega)⟩

/-- A `throw`. -/
theorem throw_statement (hg : Similar S n g g') (h : S.Near n k c c') :
    S.Simulates c c' (throwStatement g) (throwStatement g') (S.After n (k + 1)) := by
  refine .skip (expect_keyword h) fun d d' hd => ?_
  refine .then_eq (hg.parse .disjunction hd (by omega)) fun value e e' he => ?_
  refine .branch (accept_keyword he) ?_ fun d d' hd => .pure ⟨rfl, hd.mono (by omega)⟩
  intro d d' hd
  refine .then_eq (hg.parse .disjunction hd (by omega)) fun cause e e' he => ?_
  exact .pure ⟨rfl, he.mono (by omega)⟩

/-- An `import`. -/
theorem import_statement (hg : Similar S n g g') (h : S.Near n k c c') :
    S.Simulates c c' (importStatement g) (importStatement g') (S.After n (k + 1)) := by
  refine .skip (expect_keyword h) fun d d' hd => ?_
  refine .peek (.ite (hd.peek.kind_iff (by decide)) ?_ ?_)
  · intro hstring
    have heof : d.peek.kind ≠ .eof := by rw [hstring]; decide
    have hone := hd.advance heof
    exact .advance (.pure ⟨by rw [S.text_eq (hd.peek.token heof)], hone.mono (by omega)⟩)
  · intro _
    refine .then_eq (expect_name hd) fun first e e' he => ?_
    refine .then_eq (dotted_names [first] he hg.lt_add hg.lt_add') fun parts f f' hf => ?_
    exact .pure ⟨rfl, hf.mono (by omega)⟩

/-- A member of a class. -/
theorem class_member (hg : Similar S n g g') (h : S.Near n k c c') :
    S.Simulates c c' (classMember g) (classMember g') (S.After n (k + 1)) := by
  have htoken := h.peek
  refine .peek (.ite (by rw [is_keyword_eq htoken]) (fun _ => hg.function_definition h) fun _ => ?_)
  refine .ite (by rw [is_keyword_eq htoken]) (fun _ => hg.let_bind h) fun _ => ?_
  refine .ite (htoken.kind_iff (by decide)) ?_ fun _ => .fail htoken _ _
  intro hname
  have heof : c.peek.kind ≠ .eof := by rw [hname]; decide
  rw [S.text_eq (htoken.token heof)]
  refine .advance ?_
  have hone := h.advance heof
  refine .then_eq (hg.type_after_colon hone) fun _ d d' hd => ?_
  refine .skip (expect_op hd) fun e e' he => ?_
  refine .then_eq (hg.parse .expression he (by omega)) fun value d d' hd => ?_
  exact .pure ⟨rfl, hd.mono (by omega)⟩

/-- The bases of a class. -/
theorem class_bases (hg : Similar S n g g') (h : S.Near n k c c') :
    S.Simulates c c' (classBases g) (classBases g') (S.After n k) := by
  refine .branch (accept_keyword h) ?_ ?_
  · intro d d' hd
    refine .then_eq (expect_name hd) fun base e e' he => ?_
    exact .pure ⟨rfl, he.mono (by omega)⟩
  · intro d d' hd
    refine .branch (accept hd (by decide)) ?_ fun e e' he => .pure ⟨rfl, he⟩
    intro e e' he
    refine .then_eq (comma_items (by decide) [] he hg.lt_add hg.lt_add'
      fun _ _ _ _ hj => expect_name hj) fun bases f f' hf => ?_
    refine .skip (expect hf (by decide)) fun e e' he => ?_
    exact .pure ⟨rfl, he.mono (by omega)⟩

/-- A class. -/
theorem class_definition (hg : Similar S n g g') (h : S.Near n k c c') :
    S.Simulates c c' (classDefinition g) (classDefinition g') (S.After n (k + 1)) := by
  refine .skip (expect_keyword h) fun d d' hd => ?_
  refine .then_eq (expect_name hd) fun name e e' he => ?_
  refine .then_eq (hg.class_bases he) fun bases d d' hd => ?_
  refine .skip (expect hd (by decide)) fun e e' he => ?_
  refine .bind (hg.separators he) fun _ _ d d' hd => ?_
  exact (hg.items_then_brace (Expr.defineClass name bases) hd (fun _ _ _ _ hj => hg.separators hj)
    fun _ _ _ _ hj => hg.class_member hj).weaken (by omega)

/-- Names of members with their types. -/
theorem member_names (hg : Similar S n g g') {steps steps' : Nat} (done : List String)
    (h : S.Near n k c c') (hsteps : n < steps + k) (hsteps' : n < steps' + k) :
    S.Simulates c c' (memberNames g steps done) (memberNames g' steps' done) (S.After n k) := by
  induction steps generalizing steps' k c c' done with
  | zero => exact absurd (h.steps_pos hsteps) (by simp)
  | succ steps ih =>
      obtain ⟨steps', rfl⟩ := h.steps_pos hsteps'
      have htoken := h.peek
      have hiff := htoken.kind_iff (show TokenKind.name ≠ .eof ∧ TokenKind.name ≠ .semi by decide)
      refine .peek (.ite (not_congr hiff) (fun _ => .pure ⟨rfl, h⟩) fun hname => ?_)
      have heof : c.peek.kind ≠ .eof := by rw [Decidable.not_not.1 hname]; decide
      have hone := h.advance heof
      refine .advance ?_
      dsimp only
      rw [S.text_eq (htoken.token heof)]
      refine .then_eq (hg.type_after_colon hone) fun _ d d' hd => ?_
      refine .branch (accept hd (by decide)) ?_ fun e e' he => .pure ⟨rfl, he.mono (by omega)⟩
      intro e e' he
      exact (ih _ he (by omega) (by omega)).weaken (Nat.le_add_right k 2)

/-- Names between braces. -/
theorem name_list (hg : Similar S n g g') (h : S.Near n k c c') :
    S.Simulates c c' (nameList g) (nameList g') (S.After n (k + 1)) := by
  refine .skip (expect h (by decide)) fun d d' hd => ?_
  refine .then_eq (hg.member_names [] hd hg.lt_add hg.lt_add') fun names e e' he => ?_
  refine .skip (expect he (by decide)) fun d d' hd => ?_
  exact .pure ⟨rfl, hd.mono (by omega)⟩

/-- A struct. -/
theorem struct_definition (hg : Similar S n g g') (h : S.Near n k c c') :
    S.Simulates c c' (structDefinition g) (structDefinition g') (S.After n (k + 1)) := by
  refine .skip (expect_keyword h) fun d d' hd => ?_
  refine .then_eq (expect_name hd) fun name e e' he => ?_
  refine .then_eq (hg.name_list he) fun fields d d' hd => ?_
  exact .pure ⟨rfl, hd.mono (by omega)⟩

/-- An enumeration. -/
theorem enum_definition (hg : Similar S n g g') (h : S.Near n k c c') :
    S.Simulates c c' (enumDefinition g) (enumDefinition g') (S.After n (k + 1)) := by
  refine .skip (expect_keyword h) fun d d' hd => ?_
  refine .then_eq (expect_name hd) fun name e e' he => ?_
  refine .then_eq (hg.name_list he) fun variants d d' hd => ?_
  exact .pure ⟨rfl, hd.mono (by omega)⟩

/-- Arguments in parentheses. -/
theorem call_arguments (hg : Similar S n g g') (h : S.Near n k c c') :
    S.Simulates c c' (callArguments g) (callArguments g') (S.After n (k + 1)) := by
  refine .skip (expect h (by decide)) fun d d' hd => ?_
  refine .then_eq (comma_items (by decide) [] hd hg.lt_add hg.lt_add'
    fun _ _ _ hle hj => hg.parse .expression hj (by omega)) fun items e e' he => ?_
  refine .skip (expect he (by decide)) fun d d' hd => ?_
  exact .pure ⟨rfl, hd.mono (by omega)⟩

/-- A field of a record. -/
theorem record_field (hg : Similar S n g g') (h : S.Near n k c c') :
    S.Simulates c c' (recordField g) (recordField g') (S.After n (k + 1)) := by
  refine .then_eq (expect_name h) fun name d d' hd => ?_
  refine .skip (expect hd (by decide)) fun e e' he => ?_
  refine .then_eq (hg.parse .expression he (by omega)) fun value d d' hd => ?_
  exact .pure ⟨rfl, hd.mono (by omega)⟩

/-- A new object or record. -/
theorem new_expression (hg : Similar S n g g') (h : S.Near n k c c') :
    S.Simulates c c' (newExpression g) (newExpression g') (S.After n (k + 1)) := by
  refine .skip (expect_keyword h) fun d d' hd => ?_
  refine .then_eq (expect_name hd) fun name e e' he => ?_
  refine .peek (.ite (he.peek.kind_iff (by decide)) ?_ ?_)
  · intro _
    refine .then_eq (hg.call_arguments he) fun items d d' hd => ?_
    exact .pure ⟨rfl, hd.mono (by omega)⟩
  · intro _
    refine .skip (expect he (by decide)) fun d d' hd => ?_
    refine .then_eq (comma_items (by decide) [] hd hg.lt_add hg.lt_add'
      fun _ _ _ _ hj => hg.record_field hj) fun fields e e' he => ?_
    refine .skip (expect he (by decide)) fun d d' hd => ?_
    exact .pure ⟨rfl, hd.mono (by omega)⟩

/-- An expression in parentheses, or a tuple. -/
theorem parenthesised (hg : Similar S n g g') (h : S.Near n k c c') :
    S.Simulates c c' (parenthesised g) (parenthesised g') (S.After n (k + 1)) := by
  refine .skip (expect h (by decide)) fun d d' hd => ?_
  refine .branch (accept hd (by decide)) (fun e e' he => .pure ⟨rfl, he.mono (by omega)⟩) ?_
  intro e e' he
  refine .then_eq (hg.parse .expression he (by omega)) fun first d d' hd => ?_
  refine .branch (accept hd (by decide)) ?_ ?_
  · intro e e' he
    refine .then_eq (comma_items (by decide) [first] he hg.lt_add hg.lt_add'
      fun _ _ _ hle hj => hg.parse .expression hj (by omega)) fun items d d' hd => ?_
    refine .skip (expect hd (by decide)) fun e e' he => ?_
    exact .pure ⟨rfl, he.mono (by omega)⟩
  · intro e e' he
    refine .skip (expect he (by decide)) fun d d' hd => ?_
    exact .pure ⟨rfl, hd.mono (by omega)⟩

/-- A list or a comprehension. -/
theorem bracketed (hg : Similar S n g g') (h : S.Near n k c c') :
    S.Simulates c c' (bracketed g) (bracketed g') (S.After n (k + 1)) := by
  refine .skip (expect h (by decide)) fun d d' hd => ?_
  refine .branch (accept hd (by decide)) (fun e e' he => .pure ⟨rfl, he.mono (by omega)⟩) ?_
  intro e e' he
  refine .then_eq (hg.parse .expression he (by omega)) fun first d d' hd => ?_
  refine .branch (accept_keyword hd) ?_ ?_
  · intro e e' he
    refine .then_eq (expect_name he) fun binder d d' hd => ?_
    refine .skip (expect_keyword hd) fun e e' he => ?_
    refine .then_eq (hg.parse .disjunction he (by omega)) fun iterable d d' hd => ?_
    refine .skip (expect hd (by decide)) fun e e' he => ?_
    exact .pure ⟨rfl, he.mono (by omega)⟩
  · intro e e' he
    refine .then_eq (comma_tail (by decide) [first] he hg.lt_add hg.lt_add'
      fun _ _ _ hle hj => hg.parse .expression hj (by omega)) fun items d d' hd => ?_
    refine .skip (expect hd (by decide)) fun e e' he => ?_
    exact .pure ⟨rfl, he.mono (by omega)⟩

/-- An entry of a dictionary. -/
theorem dict_pair (hg : Similar S n g g') (h : S.Near n k c c') (hk : 1 ≤ k) :
    S.Simulates c c' (dictPair g) (dictPair g') (S.After n (k + 1)) := by
  refine .then_eq (hg.parse .disjunction h hk) fun key d d' hd => ?_
  refine .skip (expect hd (by decide)) fun e e' he => ?_
  refine .then_eq (hg.parse .expression he (by omega)) fun value d d' hd => ?_
  exact .pure ⟨rfl, hd.mono (by omega)⟩

/-- The rest of a dictionary or a set. -/
theorem collection_tail (hg : Similar S n g g') (first : Expr) (h : S.Near n k c c') :
    S.Simulates c c' (collectionTail? g first) (collectionTail? g' first) (S.After n k) := by
  refine .branch (accept h (by decide)) ?_ ?_
  · intro d d' hd
    refine .then_eq (hg.parse .expression hd (by omega)) fun value e e' he => ?_
    refine .then_eq (comma_tail (by decide) [(first, value)] he hg.lt_add hg.lt_add'
      fun _ _ _ hle hj => hg.dict_pair hj (by omega)) fun pairs d d' hd => ?_
    refine .skip (expect hd (by decide)) fun e e' he => ?_
    exact .pure ⟨rfl, he.mono (by omega)⟩
  · intro d d' hd
    refine .branch (accept hd (by decide)) ?_ fun e e' he => .pure ⟨rfl, he⟩
    intro e e' he
    refine .then_eq (comma_items (by decide) [first] he hg.lt_add hg.lt_add'
      fun _ _ _ hle hj => hg.parse .disjunction hj (by omega)) fun items d d' hd => ?_
    refine .skip (expect hd (by decide)) fun e e' he => ?_
    exact .pure ⟨rfl, he.mono (by omega)⟩

/-- A block, as an expression. -/
theorem block_expr (hg : Similar S n g g') (h : S.Near n k c c') :
    S.Simulates c c' (blockExpr g) (blockExpr g') (S.After n (k + 1)) :=
  .then_eq (hg.block h) fun _ _ _ hd => .pure ⟨rfl, hd⟩

/-- What an opening brace starts, read afresh. The two places to which the parsers go back after
an attempt correspond because they are those from which the attempt was made. -/
theorem brace_form (hg : Similar S n g g') (h : S.Near n k c c')
    (hbrace : c.peek.kind = .lbrace) :
    S.Simulates c c' (braceForm g) (braceForm g') (S.After n (k + 1)) := by
  have heof : c.peek.kind ≠ .eof := by rw [hbrace]; decide
  have hone := h.advance heof
  have hsecond := h.peek_second heof
  have hblock := hg.block_expr h
  refine .get ?_
  dsimp only
  refine .ite (hsecond.kind_iff (by decide)) (fun hempty => ?_) fun hnonempty => ?_
  · have htwo := hone.advance (by rw [Cursor.peek_advance heof, hempty]; decide)
    exact .advance (.advance (.pure ⟨rfl, htwo.mono (by omega)⟩))
  refine .ite (by rw [hsecond.statement_keyword_eq]) (fun _ => hblock) fun hkeyword => ?_
  have hfirst := (hg.parse .disjunction hone (by omega)).weaken (Nat.le_succ _)
  refine .advance (attempt_then hone hfirst (fun found d d' hd => ?_) ?_)
  · -- What does not turn out to be a collection is read again from its brace, as a block.
    cases found with
    | none => exact .set hblock
    | some first =>
        refine .then_eq (hg.collection_tail first hd) fun tail e e' he => ?_
        cases tail with
        | none => exact .set hblock
        | some collection => exact .pure ⟨rfl, he⟩
  · intro M M₁ error hgoesOn hkept hrun hfound hkept₁
    exact hg.retry hgoesOn h ⟨hbrace, hnonempty, by simpa using hkeyword⟩ hkept hrun hfound hkept₁

end Similar

/-- No names follow a token that is not a comma. -/
theorem comma_names_of_ne {t : Token} (rest : List Token) (h : t.kind ≠ .comma) :
    commaNames (t :: rest) = ([], t :: rest) := by
  cases rest with
  | nil => rfl
  | cons name rest => simp [commaNames, h]

/-- The names after commas have the same texts, and what follows them corresponds. -/
theorem comma_names {rest rest' : List Token} (h : Rows S.token S.goesOn rest rest') :
    (commaNames rest).1 = (commaNames rest').1 ∧
      Rows S.token S.goesOn (commaNames rest).2 (commaNames rest').2 := by
  fun_induction commaNames rest generalizing rest' with
  | case1 comma name rest htest names after heq ih =>
      have hkinds : comma.kind = .comma ∧ name.kind = .name := by simpa using htest
      cases h with
      | stop _ _ heof _ => simp [heof] at hkinds
      | cons hcomma hnext =>
          cases hnext with
          | stop _ _ heof _ => simp [heof] at hkinds
          | cons hname hrest =>
              rw [S.kind_eq hcomma, S.kind_eq hname] at htest
              have hih := ih hrest
              rw [heq] at hih
              simp only [commaNames, htest, if_true]
              exact ⟨by rw [← hih.1, S.text_eq hname], hih.2⟩
  | case2 comma name rest htest =>
      have hstays : commaNames rest' = ([], rest') := by
        cases h with
        | stop _ _ heof hmeet =>
            refine comma_names_of_ne _ fun hcomma => ?_
            rw [(Meets.kind_iff hmeet (by decide)).2 hcomma] at heof
            exact absurd heof (by decide)
        | cons hcomma hnext =>
            have hname := hnext.head.kind_iff
              (show TokenKind.name ≠ .eof ∧ TokenKind.name ≠ .semi by decide)
            rename_i comma' after'
            cases after' with
            | nil => rfl
            | cons name' after' =>
                simp only [List.headD_cons] at hname
                rw [commaNames, if_neg]
                simpa [← S.kind_eq hcomma, ← hname] using htest
      rw [hstays]
      exact ⟨rfl, h⟩
  | case3 tokens hshort =>
      have hstays : commaNames rest' = ([], rest') := by
        match tokens, rest', h with
        | [], [], _ => rfl
        | [_], _, .cons _ (.nil _) => rfl
        | [_], _, .stop _ _ heof hmeet =>
            refine comma_names_of_ne _ fun hcomma => ?_
            rw [(Meets.kind_iff hmeet (by decide)).2 hcomma] at heof
            exact absurd heof (by decide)
        | comma :: name :: rest, _, _ => exact absurd rfl (hshort comma name rest)
      rw [hstays]
      exact ⟨rfl, h⟩

/-- The names after commas are tokens of the row, two for each name. -/
theorem comma_names_taken (rest : List Token) :
    ∃ taken, rest = taken ++ (commaNames rest).2 ∧
      taken.length = 2 * (commaNames rest).1.length ∧ ∀ t ∈ taken, t.kind ≠ .eof := by
  fun_induction commaNames rest with
  | case1 comma name rest htest names after heq ih =>
      obtain ⟨hcomma, hname⟩ : comma.kind = .comma ∧ name.kind = .name := by simpa using htest
      obtain ⟨taken, hrest, hlength, hkinds⟩ := ih
      rw [heq] at hrest hlength
      refine ⟨comma :: name :: taken, by rw [hrest]; rfl, by simp at hlength ⊢; omega, ?_⟩
      simpa [hcomma, hname] using hkinds
  | case2 comma name rest htest => exact ⟨[], rfl, rfl, by simp⟩
  | case3 tokens hshort => exact ⟨[], rfl, rfl, by simp⟩

/-- Any number of tokens that do not end the row. -/
theorem Near.skip_tokens {taken rest : List Token} (h : S.Near n k c c')
    (hrest : c.rest = taken ++ rest) (hkinds : ∀ t ∈ taken, t.kind ≠ .eof) :
    S.Near n (k + taken.length) (skipTokens taken.length c) (skipTokens taken.length c') := by
  induction taken generalizing k c c' with
  | nil => exact h
  | cons token taken ih =>
      have hpeek : c.peek = token := by rw [Cursor.peek, hrest]; rfl
      have heof : c.peek.kind ≠ .eof := hpeek ▸ hkinds token List.mem_cons_self
      have hadvance : c.advance.rest = taken ++ rest := by
        rw [Cursor.advance_eq heof, hrest]
        rfl
      have hnear := ih (h.advance heof) hadvance fun t ht => hkinds t (List.mem_cons_of_mem _ ht)
      rw [List.length_cons, Nat.add_comm taken.length, ← Nat.add_assoc]
      rw [Nat.add_comm 1]
      exact hnear

/-- Names before an equals sign. If there are none, nothing is taken. -/
theorem destructure_names (h : S.Near n k c c') (hname : c.peek.kind = .name) :
    S.Simulates c c' destructureNames? destructureNames? fun names names' d d' =>
      names = names' ∧ (names.isSome → S.Near n (k + 1) d d') ∧
        (names = none → d = c ∧ d' = c') := by
  intro M M' hmemo
  have heof : c.peek.kind ≠ .eof := by rw [hname]; decide
  obtain ⟨hnames, hafter⟩ := comma_names (h.rest_tail heof)
  have hequals := is_op_eq hafter.head "="
  obtain ⟨taken, htaken, hlength, hkinds⟩ := comma_names_taken c.rest.tail
  simp only [destructureNames?, ← hnames, ← hequals]
  split
  next htest =>
    have hop := (Bool.and_eq_true_iff.1 htest).2
    refine .ok ⟨by rw [S.text_eq (h.peek.token heof)], fun _ => ?_, by simp⟩ hmemo
    -- The name, the names after it with their commas, and the equals sign are taken.
    generalize hrow : (commaNames c.rest.tail).2 = row at htaken hop
    obtain ⟨equals, row, rfl⟩ : ∃ equals after, row = equals :: after := by
      cases row with
      | nil => exact absurd rfl (kind_ne_eof_of_is_op hop)
      | cons equals after => exact ⟨equals, after, rfl⟩
    have hrest : c.rest = (c.peek :: taken ++ [equals]) ++ row := by
      obtain ⟨index, line, _ | ⟨token, tokens⟩⟩ := c
      · exact absurd rfl heof
      · simpa [Cursor.peek] using htaken
    have hnear := h.skip_tokens hrest (by
      simp only [List.cons_append, List.mem_cons, List.mem_append, List.not_mem_nil, or_false]
      rintro t (rfl | ht | rfl)
      · exact heof
      · exact hkinds t ht
      · exact kind_ne_eof_of_is_op hop)
    have hcount : (c.peek :: taken ++ [equals]).length =
        2 * (commaNames c.rest.tail).1.length + 2 := by
      simp [hlength]
    rw [hcount] at hnear
    exact hnear.mono (by omega)
  next => exact .ok ⟨rfl, by simp, fun _ => ⟨rfl, rfl⟩⟩ hmemo

/-- What follows the name of an attribute. -/
theorem Similar.attribute_end (hg : Similar S n g g') (object : Expr) (name : String)
    (h : S.Near n k c c') (hk : 1 ≤ k) :
    S.Simulates c c' (attributeEnd g object name) (attributeEnd g' object name)
      (S.After n k) := by
  refine .peek (.get (.ite (by rw [h.opens_here hk (.inl rfl)]) ?_ fun _ => .pure ⟨rfl, h⟩))
  intro _
  refine .then_eq (hg.call_arguments h) fun items d d' hd => ?_
  exact .pure ⟨rfl, hd.mono (by omega)⟩

/-- What follows a dot. -/
theorem Similar.attribute_access (hg : Similar S n g g') (object : Expr) (h : S.Near n k c c') :
    S.Simulates c c' (attributeAccess g object) (attributeAccess g' object)
      (S.After n (k + 1)) := by
  have htoken := h.peek
  rw [attribute_access_eq, attribute_access_eq]
  refine .peek (.ite (by rw [htoken.no_word_eq]) (fun _ => .fail_then htoken _ _) fun hword => ?_)
  have heof : c.peek.kind ≠ .eof := by
    intro heof
    simp [heof] at hword
  rw [S.text_eq (htoken.token heof)]
  exact .advance (hg.attribute_end object _ (h.advance heof) (by omega))

/-- One link of a chain. -/
theorem Similar.postfix_link (hg : Similar S n g g') (expr : Expr) (h : S.Near n k c c')
    (hk : 1 ≤ k) :
    S.Simulates c c' (postfixLink? g expr) (postfixLink? g' expr)
      (S.AfterIf Option.isSome n k) := by
  have htoken := h.peek
  -- A link takes a token and perhaps more.
  have hfound {α : Type} {j : Nat} {p q : Parser α} {d d' : Cursor} (hj : k + 1 ≤ j)
      (hp : S.Simulates d d' p q (S.After n j)) (next : α → Expr) :
      S.Simulates d d' (p >>= fun a => pure (some (next a))) (q >>= fun a => pure (some (next a)))
        (S.AfterIf Option.isSome n k) :=
    .then_eq hp fun _ _ _ he => .pure ⟨rfl, he.mono hj⟩
  refine .peek (.get ?_)
  dsimp only
  refine .ite (by rw [h.opens_here hk (.inl rfl)]) ?_ fun _ => ?_
  · intro _
    exact hfound (by omega) (hg.call_arguments h) _
  refine .ite (by rw [h.opens_here hk (.inr rfl)]) ?_ fun _ => ?_
  · intro hopens
    have hkind : c.peek.kind = .lbrack := of_decide_eq_true (Bool.and_eq_true_iff.1 hopens).1
    have hone := h.advance (by rw [hkind]; decide)
    refine .advance (.then_eq (hg.parse .expression hone (by omega)) fun index d d' hd => ?_)
    refine .skip (expect hd (by decide)) fun e e' he => ?_
    exact .pure ⟨rfl, he.mono (show k + 1 ≤ _ by omega)⟩
  refine .ite (htoken.kind_iff (by decide)) ?_ fun _ => ?_
  · intro hdot
    have hone := h.advance (by rw [hdot]; decide)
    exact .advance (hfound (by omega) (hg.attribute_access expr hone) id)
  refine .ite (by rw [is_op_eq htoken]) ?_ fun _ => .pure ⟨rfl, h⟩
  intro hop
  split
  · have hone := h.advance (kind_ne_eof_of_is_op hop)
    exact .advance (hfound (by omega) (expect_name hone) _)
  · exact .pure ⟨rfl, h⟩

/-- Calls, indices, attributes and variants after an expression. -/
theorem Similar.postfix_chain (hg : Similar S n g g') {steps steps' : Nat} (expr : Expr)
    (h : S.Near n k c c') (hk : 1 ≤ k) (hsteps : n < steps + k) (hsteps' : n < steps' + k) :
    S.Simulates c c' (postfixChain g steps expr) (postfixChain g' steps' expr)
      (S.After n k) := by
  induction steps generalizing steps' k c c' expr with
  | zero => exact absurd (h.steps_pos hsteps) (by simp)
  | succ steps ih =>
      obtain ⟨steps', rfl⟩ := h.steps_pos hsteps'
      rw [postfix_chain_succ, postfix_chain_succ]
      refine .bind (hg.postfix_link expr h hk) ?_
      rintro found _ d d' ⟨rfl, hd⟩
      cases found with
      | none => exact .pure ⟨rfl, hd⟩
      | some next =>
          have hmore : S.Near n (k + 1) d d' := hd
          exact (ih next hmore (by omega) (by omega) (by omega)).weaken (Nat.le_succ k)

namespace SimilarBraces

/-- An expression with no operator around it. -/
theorem primary (hg : SimilarBraces S n g g') (h : S.Near n k c c') :
    S.Simulates c c' (primary g) (primary g') (S.After n (k + 1)) := by
  refine .then_eq (reject_reserved h) fun _ d d' hd => .peek ?_
  have hone (hkind : d.peek.kind ≠ .eof) := hd.advance hkind
  have hmeets := hd.peek
  cases hd.peek with
  | ended _ heof hsemi =>
      rw [heof, hsemi]
      exact .fail hmeets _ _
  | same htoken =>
  rw [← S.kind_eq htoken, ← S.text_eq htoken]
  cases hkind : d.peek.kind
  all_goals rw [hkind] at hone
  all_goals dsimp only
  case int | float | imag | string | bytes =>
    exact .advance (.pure ⟨rfl, hone (by decide)⟩)
  case name =>
    refine .bind (destructure_names hd hkind) ?_
    rintro names _ e e' ⟨rfl, hsome, hnone⟩
    cases names with
    | some names =>
        refine .then_eq (hg.parse .expression (hsome rfl) (by omega)) fun value f f' hf => ?_
        exact .pure ⟨rfl, hf.mono (by omega)⟩
    | none =>
        obtain ⟨rfl, rfl⟩ := hnone rfl
        exact .advance (.pure ⟨rfl, hone (by decide)⟩)
  case keyword =>
    split
    case h_1 | h_2 | h_3 => exact .advance (.pure ⟨rfl, hone (by decide)⟩)
    case h_4 => exact hg.new_expression hd
    case h_5 => exact hg.conditional hd
    case h_6 => exact hg.match_statement hd
    case h_7 => exact hg.try_catch hd
    case h_8 => exact .fail hmeets _ _
  case lparen => exact hg.parenthesised hd
  case lbrack => exact hg.bracketed hd
  case lbrace => exact hg.braced hd hkind
  all_goals exact .fail hmeets _ _

/-- An expression with what follows it directly. -/
theorem postfixed (hg : SimilarBraces S n g g') (h : S.Near n k c c') :
    S.Simulates c c' (postfixed g) (postfixed g') (S.After n (k + 1)) :=
  .then_eq (hg.primary h) fun expr _ _ hd => 
    hg.postfix_chain expr hd (by omega) hg.lt_add hg.lt_add'

/-- Unary operators. -/
theorem unary (hg : SimilarBraces S n g g') (h : S.Near n k c c') :
    S.Simulates c c' (unary g) (unary g') (S.After n (k + 1)) := by
  refine .peek ?_
  rw [← unary_operator_eq h.peek]
  cases hfound : unaryOperator? c.peek with
  | none => exact hg.postfixed h
  | some operator =>
      have heof : c.peek.kind ≠ .eof := by
        intro heof
        simp [unaryOperator?, Token.isKeyword, Token.isOp, heof] at hfound
      have hone := h.advance heof
      refine .advance (.then_eq (hg.parse .unary hone (by omega)) fun operand d d' hd => ?_)
      exact .pure ⟨rfl, hd.mono (by omega)⟩

/-- Powers. -/
theorem power (hg : SimilarBraces S n g g') (h : S.Near n k c c') :
    S.Simulates c c' (power g) (power g') (S.After n (k + 1)) := by
  refine .then_eq (hg.unary h) fun base d d' hd => ?_
  refine .peek (.ite (by rw [is_op_eq hd.peek]) ?_ fun _ => .pure ⟨rfl, hd⟩)
  intro hop
  have hone := hd.advance (kind_ne_eof_of_is_op hop)
  refine .advance (.then_eq (hg.parse .power hone (by omega)) fun exponent e e' he => ?_)
  exact .pure ⟨rfl, he.mono (by omega)⟩

/-- The arithmetic and bitwise operators of the given levels. -/
theorem arithmetic (hg : SimilarBraces S n g g') (levels : List (List BinaryOperator))
    (h : S.Near n k c c') :
    S.Simulates c c' (arithmetic g levels) (arithmetic g' levels) (S.After n (k + 1)) := by
  induction levels generalizing k c c' with
  | nil => exact hg.power h
  | cons operators tighter ih =>
      refine .then_eq (ih h) fun first d d' hd => ?_
      exact left_chain first hd hg.lt_add hg.lt_add' (fun _ _ _ hj => operator_among _ hj)
        fun _ _ _ hj => ih hj

/-- Comparisons. -/
theorem comparison (hg : SimilarBraces S n g g') (h : S.Near n k c c') :
    S.Simulates c c' (comparison g) (comparison g') (S.After n (k + 1)) :=
  .then_eq (hg.arithmetic _ h) fun first _ _ hd =>
    left_chain first hd hg.lt_add hg.lt_add' (fun _ _ _ hj => comparison_operator hj)
      fun _ _ _ hj => hg.arithmetic _ hj

/-- Equalities. -/
theorem equality (hg : SimilarBraces S n g g') (h : S.Near n k c c') :
    S.Simulates c c' (equality g) (equality g') (S.After n (k + 1)) :=
  .then_eq (hg.comparison h) fun first _ _ hd =>
    left_chain first hd hg.lt_add hg.lt_add' (fun _ _ _ hj => operator_among _ hj)
      fun _ _ _ hj => hg.comparison hj

/-- Conjunctions. -/
theorem conjunction (hg : SimilarBraces S n g g') (h : S.Near n k c c') :
    S.Simulates c c' (conjunction g) (conjunction g') (S.After n (k + 1)) :=
  .then_eq (hg.equality h) fun first _ _ hd =>
    left_chain first hd hg.lt_add hg.lt_add' (fun _ _ _ hj => keyword_operator _ hj)
      fun _ _ _ hj => hg.equality hj

/-- Disjunctions. -/
theorem disjunction (hg : SimilarBraces S n g g') (h : S.Near n k c c') :
    S.Simulates c c' (disjunction g) (disjunction g') (S.After n (k + 1)) :=
  .then_eq (hg.conjunction h) fun first _ _ hd =>
    left_chain first hd hg.lt_add hg.lt_add' (fun _ _ _ hj => keyword_operator _ hj)
      fun _ _ _ hj => hg.conjunction hj

/-- Expressions and assignments. -/
theorem expression (hg : SimilarBraces S n g g') (h : S.Near n k c c') :
    S.Simulates c c' (expression g) (expression g') (S.After n (k + 1)) := by
  refine .then_eq (hg.disjunction h) fun left d d' hd => ?_
  refine .peek (.ite (by rw [is_op_eq hd.peek]) ?_ fun _ => .pure ⟨rfl, hd⟩)
  intro hop
  have hone := hd.advance (kind_ne_eof_of_is_op hop)
  refine .advance (.then_eq (hg.parse .expression hone (by omega)) fun value e e' he => ?_)
  have hlast := he.mono (j := k + 1) (by omega)
  split
  case h_5 => exact .fail hd.peek _ _
  all_goals exact .pure ⟨rfl, hlast⟩

/-- Statements. -/
theorem statement (hg : SimilarBraces S n g g') (h : S.Near n k c c') :
    S.Simulates c c' (statement g) (statement g') (S.After n (k + 1)) := by
  refine .then_eq (reject_reserved h) fun _ d d' hd => .peek ?_
  have htoken := hd.peek
  refine .ite (htoken.kind_iff (by decide)) ?_ fun _ => hg.expression hd
  intro hkeyword
  have heof : d.peek.kind ≠ .eof := by rw [hkeyword]; decide
  have hone := hd.advance heof
  rw [← S.text_eq (htoken.token heof)]
  split
  case h_1 => exact hg.let_bind hd
  case h_2 => exact hg.const_bind hd
  case h_3 => exact hg.conditional hd
  case h_4 => exact hg.while_loop hd
  case h_5 => exact hg.for_loop hd
  case h_6 => exact hg.function_definition hd
  case h_7 => exact hg.return_statement hd
  case h_8 => exact hg.match_statement hd
  case h_9 => exact hg.try_catch hd
  case h_10 => exact hg.throw_statement hd
  case h_11 => exact hg.import_statement hd
  case h_12 => exact hg.class_definition hd
  case h_13 => exact hg.struct_definition hd
  case h_14 => exact hg.enum_definition hd
  case h_15 => exact .advance (.pure ⟨rfl, hone⟩)
  case h_16 => exact .advance (.pure ⟨rfl, hone⟩)
  case h_17 => exact hg.expression hd

/-- The rules of all nonterminals. -/
theorem rule (hg : SimilarBraces S n g g') (nonterminal : Nonterminal) (h : S.Near n k c c') :
    S.Simulates c c' (rule g nonterminal) (rule g' nonterminal) (S.After n (k + 1)) := by
  cases nonterminal with
  | statement => exact hg.statement h
  | expression => exact hg.expression h
  | disjunction => exact hg.disjunction h
  | power => exact hg.power h
  | unary => exact hg.unary h
  | conditional => exact hg.conditional h

end SimilarBraces

end Script.Simulation
