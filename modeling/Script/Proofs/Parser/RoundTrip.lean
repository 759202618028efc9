import Script.Proofs.Parser.Levels

/-!
# Reading what was written

What `Expr.render` writes is read back as the same expression: `parse_render`. The proof follows
the tower of levels. `ReadsAt` says that the parser of a level reads the pieces of an expression
and stops after them; `ChainsAt` and `FollowsAt` say that a chain of operators, or of calls,
indices and attributes, that has read these pieces goes on with the expression as what it has
read so far. An expression on the left of an operator is never read on its own, but only as the
beginning of such a chain.
-/

namespace Script

namespace Expr

variable {expr : Expr} {least level : Nat}

/-- An expression that binds too loosely is written in parentheses. -/
theorem pieces_of_lt (h : expr.level < least) :
    expr.pieces least = Piece.openParen :: (expr.bare ++ [Piece.closeParen]) :=
  if_pos h

/-- An expression that binds tightly enough is written as it is. -/
theorem pieces_of_le (h : least ≤ expr.level) : expr.pieces least = expr.bare :=
  if_neg (Nat.not_lt.mpr h)

/-- Only at the level of an expression it matters how tightly it has to bind. -/
theorem pieces_succ (h : expr.level ≠ level) : expr.pieces (level + 1) = expr.pieces level := by
  by_cases hlt : expr.level < level
  · rw [pieces_of_lt hlt, pieces_of_lt (by omega)]
  · rw [pieces_of_le (by omega), pieces_of_le (by omega)]

/-- Every expression has one of the levels from the disjunctions to the tightest. -/
theorem level_bounds (expr : Expr) : 1 ≤ expr.level ∧ expr.level ≤ 13 := by
  unfold level
  split
  · rename_i operator _ _
    have hbounds := operator.level_bounds
    omega
  · decide
  · decide

end Expr

namespace Grammar

open Script.Parser Piece Expr

/-- There are levels and steps enough for a row of pieces. -/
structure Room (steps depth : Nat) (pieces : List Piece) : Prop where
  depth : pieces.length ≤ depth
  steps : pieces.length < steps

/-- There is room for what is left. -/
theorem Room.drop {steps depth : Nat} {taken pieces : List Piece}
    (h : Room steps depth (taken ++ pieces)) : Room steps depth pieces := by
  obtain ⟨hdepth, hsteps⟩ := h
  rw [List.length_append] at hdepth hsteps
  exact ⟨by omega, by omega⟩

/-- After a piece has been taken, there is room one level deeper. -/
theorem Room.descend {steps depth : Nat} {piece : Piece} {pieces : List Piece}
    (h : Room steps depth (piece :: pieces)) :
    ∃ below, depth = below + 1 ∧ Room steps below pieces := by
  obtain ⟨hdepth, hsteps⟩ := h
  rw [List.length_cons] at hdepth hsteps
  exact ⟨depth - 1, by omega, by omega, by omega⟩

/-- The parser of a level reads the expression and stops after it. -/
def ReadsAt (level : Nat) (expr : Expr) : Prop :=
  ∀ (memoise : Bool) (steps depth : Nat) (after : List Piece),
    Room steps depth (expr.pieces level ++ after) → tightness after < level →
      Yields (operandAt (within memoise steps depth) level) (expr.pieces level ++ after) expr after

/-- The parser of a level goes on after the expression as the chain that has read it. -/
def ChainsAt (level : Nat) (expr : Expr) : Prop :=
  ∀ (memoise : Bool) (steps depth : Nat) (after : List Piece) (result : Expr) (final : List Piece),
    Room steps depth (expr.pieces level ++ after) → tightness after ≤ level →
      (∀ left, after.length < left →
        Yields
          (leftChain (operatorAt level) (operandAt (within memoise steps depth) (level + 1)) left
            expr)
          after result final) →
        Yields (operandAt (within memoise steps depth) level) (expr.pieces level ++ after) result
          final

/-- The parser of the tightest level goes on after the expression as the chain that has read it.
An attribute must not be followed by arguments. -/
def FollowsAt (least : Nat) (expr : Expr) : Prop :=
  ∀ (memoise : Bool) (steps depth : Nat) (after : List Piece) (result : Expr) (final : List Piece),
    Room steps depth (expr.pieces least ++ after) →
      (expr.calleeLevel ≤ least ∨ (front after).kind ≠ .lparen) →
      (∀ left, after.length < left →
        Yields (postfixChain (within memoise steps depth) left expr) after result final) →
        Yields (postfixed (within memoise steps depth)) (expr.pieces least ++ after) result final

variable {expr : Expr} {level : Nat}

/-! ## From level to level -/

/-- A chain that something looser follows has read the expression. -/
theorem ChainsAt.reads (h : ChainsAt level expr) (hlow : 1 ≤ level) (hhigh : level ≤ 10) :
    ReadsAt level expr := by
  intro memoise steps depth after hroom htight
  refine h memoise steps depth after expr after hroom (Nat.le_of_lt htight) fun left hleft => ?_
  exact yields_chain_end hlow hhigh (by omega) htight

/-- The same for calls, indices and attributes. -/
theorem FollowsAt.reads (h : FollowsAt 13 expr) : ReadsAt 13 expr := by
  intro memoise steps depth after hroom htight
  refine h memoise steps depth after expr after hroom ?_ fun left hleft => ?_
  · exact .inr (front_of_tightness_lt htight).1
  · exact yields_postfix_end (by omega) htight

/-- A chain starts with an operand of the next level. -/
theorem ReadsAt.chains (h : ReadsAt (level + 1) expr) (hlevel : expr.level ≠ level)
    (hlow : 1 ≤ level) (hhigh : level ≤ 10) : ChainsAt level expr := by
  intro memoise steps depth after result final hroom htight hchain
  rw [operand_at_eq _ hlow hhigh]
  have hfirst := h memoise steps depth after
  rw [pieces_succ hlevel] at hfirst
  exact (hfirst hroom (by omega)).bind (hchain steps hroom.drop.steps)

/-- A power may be just its base. -/
theorem ReadsAt.power (h : ReadsAt 12 expr) (hlevel : expr.level ≠ 11) : ReadsAt 11 expr := by
  intro memoise steps depth after hroom htight
  have hbase := h memoise steps depth after
  rw [pieces_succ hlevel] at hbase
  refine (hbase hroom (by omega)).bind (yields_peek fun token hfits => ?_)
  have hop : token.isOp "**" = false :=
    (hfits.is_op "**").trans (decide_eq_false (front_ne_of_tightness .power rfl htight))
  rw [hop]
  exact yields_pure expr after

/-- A token that starts an operand is no unary operator. -/
theorem unary_operator_of_opens {piece : Piece} {token : Token} (hfits : piece.Fits token)
    (h : Opens piece) : unaryOperator? token = none := by
  have hkeyword : piece ≠ ⟨.keyword, "not"⟩ := by
    rintro rfl
    rcases h with h | h | h <;> cases h
  have hsign (symbol : String) : piece ≠ ⟨.op, symbol⟩ := by
    rintro rfl
    rcases h with h | h | h <;> cases h
  unfold unaryOperator?
  rw [hfits.is_keyword, hfits.is_op, hfits.is_op, hfits.is_op, decide_eq_false hkeyword,
    decide_eq_false (hsign _), decide_eq_false (hsign _), decide_eq_false (hsign _)]
  rfl

/-- A unary expression may be just an operand. -/
theorem ReadsAt.unary (h : ReadsAt 13 expr) (hformula : expr.Formula) (hlevel : expr.level ≠ 12) :
    ReadsAt 12 expr := by
  intro memoise steps depth after hroom htight
  have hoperand := h memoise steps depth after
  -- What starts with a sign is unary, and has been put in parentheses here.
  obtain ⟨first, rest, hpieces, hopens⟩ := hformula.opens (Nat.le_refl 13)
  rw [pieces_succ hlevel] at hoperand hpieces
  refine yields_peek fun token hfits => ?_
  rw [hpieces] at hfits
  rw [unary_operator_of_opens hfits hopens]
  exact hoperand hroom (by omega)

/-- The parser of every level but that of the expression itself is that of the next. -/
theorem ReadsAt.down (h : ReadsAt (level + 1) expr) (hformula : expr.Formula)
    (hlevel : expr.level ≠ level) (hlow : 1 ≤ level) (hhigh : level ≤ 12) :
    ReadsAt level expr := by
  rcases Nat.lt_or_ge 10 level with hten | hten
  · rcases Nat.lt_or_ge 11 level with heleven | heleven
    · obtain rfl : level = 12 := by omega
      exact h.unary hformula hlevel
    · obtain rfl : level = 11 := by omega
      exact h.power hlevel
  · exact (h.chains hlevel hlow hten).reads hlow hten

/-- The parser of a level reads what the parser of a later level reads, if the expression has none
of the levels between. -/
theorem ReadsAt.descend {distance : Nat} (h : ReadsAt (level + distance) expr)
    (hformula : expr.Formula) (hlow : 1 ≤ level) (hhigh : level + distance ≤ 13)
    (hlevel : expr.level < level ∨ level + distance ≤ expr.level) : ReadsAt level expr := by
  induction distance generalizing level with
  | zero => exact h
  | succ distance ih =>
      -- The induction runs from the tight end: the next level has been dealt with already.
      have hnext : ReadsAt (level + 1) expr := by
        refine ih ?_ (by omega) (by omega) (by omega)
        rwa [Nat.add_assoc, Nat.add_comm 1 distance]
      exact hnext.down hformula (by omega) hlow (by omega)

/-! ## Parentheses -/

/-- An expression where nothing stands around it. -/
theorem ReadsAt.expression (h : ReadsAt 1 expr) {memoise : Bool} {steps depth : Nat}
    {after : List Piece} (hroom : Room steps depth (expr.bare ++ after))
    (htight : tightness after = 0) :
    Yields (expression (within memoise steps depth)) (expr.bare ++ after) expr after := by
  have hdisjunction := h memoise steps depth after
  rw [pieces_of_le expr.level_bounds.1] at hdisjunction
  refine (hdisjunction hroom (by omega)).bind (yields_unassigned fun hassign => ?_)
  refine yields_peek fun token hfits => ?_
  have hop : token.isOp "=" = false := (hfits.is_op "=").trans (decide_eq_false hassign)
  rw [hop]
  exact yields_pure expr after

/-- One level of descent to an expression. -/
theorem ReadsAt.parse_expression (h : ReadsAt 1 expr) {memoise : Bool} {steps depth : Nat}
    {after : List Piece} (hroom : Room steps depth (expr.bare ++ after))
    (htight : tightness after = 0) :
    Yields ((within memoise steps (depth + 1)).parse .expression) (expr.bare ++ after) expr
      after :=
  h.expression hroom htight

/-- What starts an expression has not been reserved for anything else. -/
theorem yields_reject_reserved {pieces : List Piece}
    (h : Opens (front pieces) ∨ (front pieces).kind = .op) :
    Yields rejectReserved pieces () pieces := by
  refine yields_peek fun token hfits => ?_
  have hkind : token.kind ≠ .atSign ∧ token.kind ≠ .keyword := by
    rw [hfits.kind]
    rcases h with (h | h | h) | h <;> rw [h] <;> decide
  have hkeyword (word : String) : token.isKeyword word = false := by
    unfold Token.isKeyword
    rw [decide_eq_false hkind.2, Bool.false_and]
  rw [if_neg hkind.1, hkeyword, hkeyword]
  exact yields_pure () pieces

/-- What an operand starts with. -/
theorem front_pieces (hformula : expr.Formula) (least : Nat) (after : List Piece) :
    Opens (front (expr.pieces least ++ after)) ∨
      (front (expr.pieces least ++ after)).kind = .op := by
  obtain ⟨first, rest, hpieces, hstarts⟩ := hformula.starts least
  rw [hpieces]
  exact hstarts

/-- What an expression starts with where nothing stands around it. -/
theorem front_bare (hformula : expr.Formula) (after : List Piece) :
    Opens (front (expr.bare ++ after)) ∨ (front (expr.bare ++ after)).kind = .op := by
  rw [← pieces_of_le expr.level_bounds.1]
  exact front_pieces hformula 1 after

/-- No expression starts with a closing parenthesis. -/
theorem front_bare_ne_close (hformula : expr.Formula) (after : List Piece) :
    (front (expr.bare ++ after)).kind ≠ .rparen := by
  rcases front_bare hformula after with (h | h | h) | h <;> rw [h] <;> decide

/-- An expression in parentheses. -/
theorem ReadsAt.parenthesised (h : ReadsAt 1 expr) (hformula : expr.Formula) {memoise : Bool}
    {steps depth : Nat} {after : List Piece}
    (hroom : Room steps depth (expr.bare ++ closeParen :: after)) :
    Yields (primary (within memoise steps (depth + 1)))
      (openParen :: (expr.bare ++ closeParen :: after)) expr after := by
  refine (yields_reject_reserved (.inl (.inr (.inr rfl)))).bind (yields_peek fun token hfits => ?_)
  have hkind : token.kind = .lparen := hfits.kind
  rw [hkind]
  refine yields_expect rfl fun _ _ => ?_
  refine (yields_accept_not (front_bare_ne_close hformula _)).bind ?_
  refine (h.parse_expression hroom rfl).bind ?_
  have hcomma : (front (closeParen :: after)).kind ≠ .comma := by
    rw [front_cons]
    decide
  refine (yields_accept_not hcomma).bind ?_
  exact yields_expect rfl fun _ _ => yields_pure expr after

/-- Every expression can stand in parentheses. -/
theorem ReadsAt.follows {least : Nat} (h : ReadsAt 1 expr) (hformula : expr.Formula)
    (hlevel : expr.level < least) : FollowsAt least expr := by
  intro memoise steps depth after result final hroom _ hchain
  rw [pieces_of_lt hlevel, List.cons_append, List.append_assoc, List.singleton_append] at hroom ⊢
  obtain ⟨below, rfl, hinner⟩ := hroom.descend
  refine (h.parenthesised hformula hinner).bind (hchain steps ?_)
  have hsteps := hinner.drop.steps
  rw [List.length_cons] at hsteps
  exact Nat.lt_of_succ_lt hsteps

/-! ## The levels of one expression -/

/-- An expression is read at every level. -/
structure Readable (expr : Expr) : Prop where
  formula : expr.Formula
  reads {level : Nat} : 1 ≤ level → level ≤ 13 → ReadsAt level expr
  chains {level : Nat} : 1 ≤ level → level ≤ 10 → ChainsAt level expr
  follows {least : Nat} : 13 ≤ least → FollowsAt least expr

/-- An expression that is read at its own level is read at every level: at the looser ones as it
is, and at the tighter ones in parentheses. -/
theorem Readable.of_own (hformula : expr.Formula) (hreads : ReadsAt expr.level expr)
    (hchains : expr.level ≤ 10 → ChainsAt expr.level expr)
    (hfollows : expr.level = 13 → FollowsAt 13 expr) : Readable expr := by
  obtain ⟨hlow, hhigh⟩ := expr.level_bounds
  have hloose {level : Nat} (hle : 1 ≤ level) (hlevel : level ≤ expr.level) :
      ReadsAt level expr := by
    obtain ⟨distance, hdistance⟩ := Nat.exists_eq_add_of_le hlevel
    rw [hdistance] at hreads
    exact hreads.descend hformula hle (by omega) (by omega)
  have hfollowsAt {least : Nat} (hleast : 13 ≤ least) : FollowsAt least expr := by
    by_cases hlt : expr.level < least
    · exact (hloose (Nat.le_refl 1) hlow).follows hformula hlt
    · obtain rfl : least = 13 := by omega
      exact hfollows (by omega)
  -- Above its own level the expression stands in parentheses, which bind most tightly.
  have hreadsAt {level : Nat} (hle : 1 ≤ level) (hlevel : level ≤ 13) : ReadsAt level expr := by
    by_cases hlt : expr.level < level
    · obtain ⟨distance, hdistance⟩ := Nat.exists_eq_add_of_le hlevel
      have htight := (hfollowsAt (Nat.le_refl 13)).reads
      rw [hdistance] at htight
      exact htight.descend hformula hle (by omega) (.inl hlt)
    · exact hloose hle (by omega)
  refine ⟨hformula, hreadsAt, fun {level} hle hlevel => ?_, hfollowsAt⟩
  by_cases hsame : expr.level = level
  · subst hsame
    exact hchains hlevel
  · exact (hreadsAt (by omega) (by omega)).chains hsame hle hlevel

/-- An expression of the tightest level has only to be read there. -/
theorem Readable.of_follows (hformula : expr.Formula) (hlevel : expr.level = 13)
    (h : FollowsAt 13 expr) : Readable expr := by
  refine .of_own hformula ?_ (fun hle => ?_) fun _ => h
  · rw [hlevel]
    exact h.reads
  · omega

/-- An expression of a level below the powers has only to be read there as part of a chain. -/
theorem Readable.of_chains (hformula : expr.Formula) (hlevel : expr.level ≤ 10)
    (h : ChainsAt expr.level expr) : Readable expr :=
  .of_own hformula (h.reads expr.level_bounds.1 hlevel) (fun _ => h) fun heq => by omega

/-! ## Numbers and names -/

/-- An expression that is one token. -/
theorem follows_of_primary {piece : Piece} (hpieces : expr.pieces 13 = [piece])
    (h : ∀ (g : Grammar) (after : List Piece), Yields (primary g) (piece :: after) expr after) :
    FollowsAt 13 expr := by
  intro memoise steps depth after result final hroom _ hchain
  rw [hpieces, List.singleton_append] at hroom ⊢
  have hsteps := hroom.steps
  rw [List.length_cons] at hsteps
  exact (h _ after).bind (hchain steps (Nat.lt_of_succ_lt hsteps))

/-- A number. -/
theorem yields_number (g : Grammar) (n : Nat) (after : List Piece) :
    Yields (primary g) (Token.numberPiece n :: after) (.int n) after := by
  refine (yields_reject_reserved (.inl (.inl rfl))).bind (yields_peek fun token hfits => ?_)
  have hkind : token.kind = .int := hfits.kind
  have hvalue : Number.ofDigits token.text.toList = n := by
    rw [hfits.text]
    show Number.ofDigits (String.ofList (Number.decimalDigits n)).toList = n
    rw [String.toList_ofList, Number.of_digits_decimal_digits]
  rw [hkind]
  refine yields_advance fun _ _ => ?_
  rw [hvalue]
  exact yields_pure _ after

/-- What stands after names and commas is part of the row. -/
theorem comma_names_suffix (tokens : List Token) : (commaNames tokens).2 <:+ tokens := by
  fun_induction commaNames tokens with
  | case1 comma word rest _ names after hnames ih =>
      rw [hnames] at ih
      exact ih.trans ((List.suffix_cons word rest).trans (List.suffix_cons comma (word :: rest)))
  | case2 => exact List.suffix_rfl
  | case3 => exact List.suffix_rfl

/-- Without a sign of assignment there are no names to destructure into. -/
theorem yields_destructure_names (pieces : List Piece) :
    Yields destructureNames? pieces none pieces := by
  intro cursor memo hshows
  refine ⟨cursor, ?_, hshows⟩
  -- However many names follow, what stands after them is no sign of assignment.
  have hop : ((commaNames cursor.rest.tail).2.headD default).isOp "=" = false := by
    cases hafter : (commaNames cursor.rest.tail).2 with
    | nil => rfl
    | cons token after =>
        have hmem : token ∈ cursor.rest := by
          refine List.mem_of_mem_tail ((comma_names_suffix cursor.rest.tail).mem ?_)
          rw [hafter]
          exact List.mem_cons_self
        exact hshows.is_no_assignment hmem
  unfold destructureNames?
  dsimp only
  rw [hop, Bool.and_false]
  rfl

/-- A name. -/
theorem yields_name (g : Grammar) {word : String} (hkeyword : word ∉ Token.keywords)
    (after : List Piece) :
    Yields (primary g) (Token.wordPiece word :: after) (.name word) after := by
  have hpiece : Token.wordPiece word = ⟨.name, word⟩ := by
    unfold Token.wordPiece
    rw [if_neg fun hcontains => hkeyword (List.contains_iff_mem.mp hcontains)]
  rw [hpiece]
  refine (yields_reject_reserved (.inl (.inr (.inl rfl)))).bind (yields_peek fun token hfits => ?_)
  have hkind : token.kind = .name := hfits.kind
  rw [hkind]
  refine (yields_destructure_names _).bind ?_
  refine yields_advance fun _ _ => ?_
  rw [hfits.text]
  exact yields_pure _ after

/-! ## Operators -/

/-- A unary operator before its operand. -/
theorem reads_unary {operand : Expr} (operator : UnaryOperator) (h : Readable operand) :
    ReadsAt 12 (.unary operator operand) := by
  intro memoise steps depth after hroom htight
  have hpieces : (Expr.unary operator operand).pieces 12 =
      operator.piece :: operand.pieces 12 := rfl
  rw [hpieces, List.cons_append] at hroom ⊢
  obtain ⟨below, rfl, hinner⟩ := hroom.descend
  refine yields_peek fun token hfits => ?_
  have hoperator : unaryOperator? token = some operator := by
    unfold unaryOperator?
    rw [hfits.is_keyword, hfits.is_op, hfits.is_op, hfits.is_op]
    cases operator <;> rfl
  rw [hoperator]
  refine yields_advance fun _ _ => ?_
  exact (h.reads (by decide) (by decide) memoise steps below after hinner htight).bind
    (yields_pure _ after)

/-- A power and its two operands. -/
theorem reads_power {left right : Expr} (hleft : Readable left) (hright : Readable right) :
    ReadsAt 11 (.binary .power left right) := by
  intro memoise steps depth after hroom htight
  have hpieces : (Expr.binary .power left right).pieces 11 =
      left.pieces 12 ++ (⟨.op, "**"⟩ :: right.pieces 11) := rfl
  rw [hpieces, List.append_assoc, List.cons_append] at hroom ⊢
  have htightPower : tightness (⟨.op, "**"⟩ :: (right.pieces 11 ++ after)) = 11 :=
    tightness_operator .power _
  have hbase := hleft.reads (by decide) (by decide) memoise steps depth _ hroom (by omega)
  obtain ⟨below, rfl, hinner⟩ := hroom.drop.descend
  refine hbase.bind (yields_peek fun token hfits => ?_)
  have hop : token.isOp "**" = true := (hfits.is_op "**").trans (decide_eq_true rfl)
  rw [if_pos hop]
  refine yields_advance fun _ _ => ?_
  exact (hright.reads (by decide) (by decide) memoise steps below after hinner htight).bind
    (yields_pure _ after)

/-- No expression starts with a keyword. -/
theorem front_pieces_ne_keyword (hformula : expr.Formula) (least : Nat) (after : List Piece)
    {word : String} : front (expr.pieces least ++ after) ≠ ⟨.keyword, word⟩ := by
  intro hfront
  have hstarts := front_pieces hformula least after
  rw [hfront] at hstarts
  rcases hstarts with (h | h | h) | h <;> cases h

/-- An operator that groups to the left and its two operands. -/
theorem chains_binary {left right : Expr} {operator : BinaryOperator} (hleft : Readable left)
    (hright : Readable right) (hlevel : operator.level ≤ 10) :
    ChainsAt operator.level (.binary operator left right) := by
  intro memoise steps depth after result final hroom htight hchain
  obtain ⟨hlow, -⟩ := operator.level_bounds
  obtain ⟨hleftLevel, hrightLevel⟩ := BinaryOperator.levels_of_le hlevel
  have hpieces : (Expr.binary operator left right).pieces operator.level =
      left.pieces operator.level ++ (operator.pieces ++ right.pieces (operator.level + 1)) := by
    have hlevelEq : operator.level ≤ (Expr.binary operator left right).level := Nat.le_refl _
    rw [pieces_of_le hlevelEq, bare, hleftLevel, hrightLevel]
    rfl
  rw [hpieces, List.append_assoc, List.append_assoc] at hroom ⊢
  -- The left operand is not read on its own: the chain that reads it goes on with the operator.
  refine hleft.chains hlow hlevel memoise steps depth _ result final hroom ?_ fun count hcount => ?_
  · exact Nat.le_of_eq (tightness_operator operator _)
  · rw [List.length_append, List.length_append] at hcount
    have hlength := operator.pieces_length_pos
    obtain ⟨count, rfl⟩ := Nat.exists_eq_add_one.mpr (show 0 < count by omega)
    have hoperand := hright.reads (by omega) (by omega) memoise steps depth after
      hroom.drop.drop (Nat.lt_succ_of_le htight)
    exact yields_chain_step hlevel (fun _ => front_pieces_ne_keyword hright.formula _ _) hoperand
      (hchain count (by omega))

/-! ## Calls, indices and attributes -/

/-- No argument starts with a closing parenthesis. -/
theorem front_arguments_ne_close {item : Expr} (h : item.Formula) (items : List Expr)
    (after : List Piece) : (front (argumentPieces (item :: items) ++ after)).kind ≠ .rparen := by
  cases items with
  | nil => exact front_bare_ne_close h after
  | cons next items =>
      rw [argumentPieces, List.append_assoc]
      · exact front_bare_ne_close h _
      · exact List.cons_ne_nil next items

/-- Arguments up to the closing parenthesis. -/
theorem yields_comma_items {items : List Expr} (hitems : ∀ item ∈ items, Readable item)
    {memoise : Bool} {steps depth count : Nat} {after : List Piece} (done : List Expr)
    (hroom : Room steps depth (argumentPieces items ++ closeParen :: after))
    (hcount : (argumentPieces items ++ closeParen :: after).length < count) :
    Yields (commaItems .rparen ((within memoise steps (depth + 1)).parse .expression) count done)
      (argumentPieces items ++ closeParen :: after) (done.reverse ++ items)
      (closeParen :: after) := by
  induction items generalizing count done with
  | nil =>
      obtain ⟨count, rfl⟩ := Nat.exists_eq_add_of_lt hcount
      rw [List.append_nil]
      refine yields_peek fun token hfits => ?_
      have hkind : token.kind = .rparen := hfits.kind
      rw [if_pos hkind]
      exact yields_pure _ _
  | cons item items ih =>
      have hitem := hitems item List.mem_cons_self
      have hreads := hitem.reads (Nat.le_refl 1) (by decide)
      obtain ⟨count, rfl⟩ := Nat.exists_eq_add_one.mpr (show 0 < count by omega)
      refine yields_peek fun token hfits => ?_
      have hkind : token.kind ≠ .rparen := by
        rw [hfits.kind]
        exact front_arguments_ne_close hitem.formula items _
      rw [if_neg hkind]
      cases items with
      | nil =>
          refine (hreads.parse_expression hroom rfl).bind ?_
          have hcomma : (front (closeParen :: after)).kind ≠ .comma := by
            rw [front_cons]
            decide
          refine (yields_accept_not hcomma).bind ?_
          have hdone : done.reverse ++ [item] = (item :: done).reverse := by
            rw [List.reverse_cons]
          rw [hdone]
          exact yields_pure _ _
      | cons next items =>
          have hpieces : argumentPieces (item :: next :: items) ++ closeParen :: after =
              item.bare ++ comma :: (argumentPieces (next :: items) ++ closeParen :: after) := by
            rw [argumentPieces, List.append_assoc, List.cons_append]
            exact List.cons_ne_nil next items
          rw [hpieces] at hroom hcount ⊢
          refine (hreads.parse_expression hroom rfl).bind ?_
          refine (yields_accept rfl).bind ?_
          have hdone : done.reverse ++ item :: next :: items =
              (item :: done).reverse ++ next :: items := by
            rw [List.reverse_cons, List.append_assoc, List.singleton_append]
          rw [hdone]
          refine ih (fun other hother => hitems other (List.mem_cons_of_mem item hother))
            (item :: done) ?_ ?_
          · rw [List.append_cons] at hroom
            exact hroom.drop
          · rw [List.length_append, List.length_cons] at hcount
            omega

/-- Arguments in parentheses. -/
theorem yields_call_arguments {items : List Expr} (hitems : ∀ item ∈ items, Readable item)
    {memoise : Bool} {steps depth : Nat} {after : List Piece}
    (hroom : Room steps depth (argumentPieces items ++ closeParen :: after)) :
    Yields (callArguments (within memoise steps (depth + 1)))
      (openParen :: (argumentPieces items ++ closeParen :: after)) items after := by
  refine yields_expect rfl fun _ _ => ?_
  refine (yields_comma_items hitems [] hroom hroom.steps).bind ?_
  exact yields_expect rfl fun _ _ => yields_pure items after

/-- What follows an expression directly makes a longer one of it if one turn of the chain of calls,
indices and attributes does. -/
theorem FollowsAt.extend {operand : Expr} {least : Nat} {last : List Piece}
    (h : FollowsAt least operand) (hpieces : expr.pieces 13 = operand.pieces least ++ last)
    (hlast : 0 < last.length)
    (hfront : ∀ after, operand.calleeLevel ≤ least ∨ (front (last ++ after)).kind ≠ .lparen)
    (hturn : ∀ (memoise : Bool) (steps depth : Nat) (after : List Piece) (count : Nat)
      (result : Expr) (final : List Piece),
      Room steps depth (last ++ after) →
        (expr.calleeLevel ≤ 13 ∨ (front after).kind ≠ .lparen) →
          Yields (postfixChain (within memoise steps depth) count expr) after result final →
            Yields (postfixChain (within memoise steps depth) (count + 1) operand)
              (last ++ after) result final) :
    FollowsAt 13 expr := by
  intro memoise steps depth after result final hroom hafter hchain
  rw [hpieces, List.append_assoc] at hroom ⊢
  refine h memoise steps depth _ result final hroom (hfront after) fun count hcount => ?_
  rw [List.length_append] at hcount
  obtain ⟨count, rfl⟩ := Nat.exists_eq_add_one.mpr (show 0 < count by omega)
  exact hturn memoise steps depth after count result final hroom.drop hafter
    (hchain count (by omega))

/-- A call. -/
theorem follows_call {callee : Expr} {items : List Expr} (hcallee : Readable callee)
    (hitems : ∀ item ∈ items, Readable item) : FollowsAt 13 (.call callee items) := by
  have hlevel : 13 ≤ callee.calleeLevel := by
    unfold calleeLevel
    split <;> decide
  refine (hcallee.follows hlevel).extend rfl (Nat.succ_pos _) (fun _ => .inl (Nat.le_refl _)) ?_
  intro memoise steps depth after count result final hroom _ hchain
  rw [List.cons_append, List.append_assoc, List.singleton_append] at hroom ⊢
  obtain ⟨below, rfl, hinner⟩ := hroom.descend
  unfold postfixChain
  refine yields_peek fun token hfits => yields_get fun cursor hshows => ?_
  have hkind : token.kind = .lparen := hfits.kind
  rw [hkind, hshows.on_same_line]
  exact (yields_call_arguments hitems hinner).bind hchain

/-- An index. -/
theorem follows_index {collection place : Expr} (hcollection : Readable collection)
    (hplace : Readable place) : FollowsAt 13 (.index collection place) := by
  refine (hcollection.follows (Nat.le_refl 13)).extend rfl (Nat.succ_pos _)
    (fun _ => .inr ?_) ?_
  · rw [List.cons_append, front_cons]
    decide
  · intro memoise steps depth after count result final hroom _ hchain
    rw [List.cons_append, List.append_assoc, List.singleton_append] at hroom ⊢
    obtain ⟨below, rfl, hinner⟩ := hroom.descend
    unfold postfixChain
    refine yields_peek fun token hfits => yields_get fun cursor hshows => ?_
    have hkind : token.kind = .lbrack := hfits.kind
    rw [hkind, hshows.on_same_line]
    refine yields_advance fun _ _ => ?_
    refine ((hplace.reads (Nat.le_refl 1) (by decide)).parse_expression hinner rfl).bind ?_
    exact yields_expect rfl fun _ _ => hchain

/-- One turn of the chain at a dot. -/
theorem yields_postfix_dot {g : Grammar} {count : Nat} {object next result : Expr} {word : String}
    {pieces after final : List Piece}
    (haccess : Yields (attributeAccess g object) (Token.wordPiece word :: pieces) next after)
    (h : Yields (postfixChain g count next) after result final) :
    Yields (postfixChain g (count + 1) object) (dot :: Token.wordPiece word :: pieces) result
      final := by
  unfold postfixChain
  refine yields_peek fun token hfits => yields_get fun cursor hshows => ?_
  have hkind : token.kind = .dot := hfits.kind
  rw [hkind]
  exact yields_advance fun _ _ => haccess.bind h

/-- What stands after a dot may be a keyword. -/
theorem names_attribute {word : String} {token : Token} (h : (Token.wordPiece word).Fits token) :
    (decide (token.kind ≠ .name) && decide (token.kind ≠ .keyword)) = false := by
  rw [h.kind]
  rcases Token.kind_word_piece word with hkind | hkind <;> rw [hkind] <;> decide

/-- An attribute that no arguments follow. -/
theorem yields_attribute {g : Grammar} {object : Expr} {word : String} {after : List Piece}
    (hobject : object.Formula) (hafter : (front after).kind ≠ .lparen) :
    Yields (attributeAccess g object) (Token.wordPiece word :: after) (.getAttribute object word)
      after := by
  refine yields_peek fun token hfits => ?_
  rw [names_attribute hfits, hfits.text]
  refine yields_advance fun _ _ => yields_peek fun next hnext => yields_get fun cursor _ => ?_
  have hkind : (decide (next.kind = .lparen) && cursor.onSameLine) = false := by
    rw [hnext.kind, decide_eq_false hafter, Bool.false_and]
  rw [hkind, if_neg Bool.false_ne_true]
  split
  · cases hobject with
    | name _ _ hself => exact absurd rfl hself
  · exact yields_pure _ after

/-- A method and its arguments. -/
theorem yields_method {object : Expr} {word : String} {items : List Expr}
    (hitems : ∀ item ∈ items, Readable item) {memoise : Bool} {steps depth : Nat}
    {after : List Piece}
    (hroom : Room steps depth (argumentPieces items ++ closeParen :: after)) :
    Yields (attributeAccess (within memoise steps (depth + 1)) object)
      (Token.wordPiece word :: openParen :: (argumentPieces items ++ closeParen :: after))
      (.methodCall object word items) after := by
  refine yields_peek fun token hfits => ?_
  rw [names_attribute hfits, hfits.text]
  refine yields_advance fun _ _ => yields_peek fun next hnext => yields_get fun cursor hshows => ?_
  have hkind : (decide (next.kind = .lparen) && cursor.onSameLine) = true := by
    rw [hnext.kind, hshows.on_same_line]
    rfl
  rw [if_pos hkind]
  exact (yields_call_arguments hitems hroom).bind (yields_pure _ after)

/-- An attribute. -/
theorem follows_attribute {object : Expr} {word : String} (hobject : Readable object) :
    FollowsAt 13 (.getAttribute object word) := by
  refine (hobject.follows (Nat.le_refl 13)).extend rfl (Nat.succ_pos _)
    (fun _ => .inr ?_) ?_
  · rw [List.cons_append, front_cons]
    decide
  · intro memoise steps depth after count result final _ hafter hchain
    -- With arguments after it, it would be read as a method.
    have hfront : (front after).kind ≠ .lparen :=
      hafter.resolve_left (by decide : ¬14 ≤ 13)
    exact yields_postfix_dot (yields_attribute hobject.formula hfront) hchain

/-- A call of a method. -/
theorem follows_method {object : Expr} {word : String} {items : List Expr}
    (hobject : Readable object) (hitems : ∀ item ∈ items, Readable item) :
    FollowsAt 13 (.methodCall object word items) := by
  refine (hobject.follows (Nat.le_refl 13)).extend rfl (Nat.succ_pos _)
    (fun _ => .inr ?_) ?_
  · rw [List.cons_append, front_cons]
    decide
  · intro memoise steps depth after count result final hroom _ hchain
    rw [List.cons_append, List.cons_append, List.cons_append, List.append_assoc,
      List.singleton_append] at hroom ⊢
    obtain ⟨below, rfl, hinner⟩ := hroom.descend
    have hinner : Room steps below
        ([Token.wordPiece word, openParen] ++ (argumentPieces items ++ closeParen :: after)) :=
      hinner
    exact yields_postfix_dot (yields_method hitems hinner.drop) hchain

/-! ## All expressions -/

/-- Every expression is read at every level. -/
theorem readable_of_formula (h : expr.Formula) : Readable expr := by
  induction h with
  | int hbound =>
      exact .of_follows (.int hbound) rfl (follows_of_primary rfl fun g => yields_number g _)
  | name hword hkeyword hself =>
      exact .of_follows (.name hword hkeyword hself) rfl
        (follows_of_primary rfl fun g => yields_name g hkeyword)
  | unary operator h ih =>
      exact .of_own (.unary operator h) (reads_unary operator ih)
        (fun hle => absurd hle (by decide : ¬12 ≤ 10)) fun heq => absurd heq (by decide : ¬12 = 13)
  | binary operator hleft hright ihleft ihright =>
      have hformula := Formula.binary operator hleft hright
      rcases operator.eq_power_or_le with rfl | hlevel
      · exact .of_own hformula (reads_power ihleft ihright)
          (fun hle => absurd hle (by decide : ¬11 ≤ 10))
          fun heq => absurd heq (by decide : ¬11 = 13)
      · exact .of_chains hformula hlevel (chains_binary ihleft ihright hlevel)
  | call h hitems ih ihitems =>
      exact .of_follows (.call h hitems) rfl (follows_call ih ihitems)
  | index h hplace ih ihplace =>
      exact .of_follows (.index h hplace) rfl (follows_index ih ihplace)
  | getAttribute hword h ih =>
      exact .of_follows (.getAttribute hword h) rfl (follows_attribute ih)
  | methodCall hword h hitems ih ihitems =>
      exact .of_follows (.methodCall hword h hitems) rfl (follows_method ih ihitems)

/-! ## The program of one expression -/

/-- An expression is a statement. -/
theorem Readable.statement (h : Readable expr) {memoise : Bool} {steps depth : Nat}
    (hroom : Room steps depth expr.bare) :
    Yields ((within memoise steps (depth + 1)).parse .statement) expr.bare expr [] := by
  rw [← List.append_nil expr.bare] at hroom ⊢
  have hstarts := front_bare h.formula []
  refine (yields_reject_reserved hstarts).bind (yields_peek fun token hfits => ?_)
  have hkind : token.kind ≠ .keyword := by
    rw [hfits.kind]
    rcases hstarts with (h | h | h) | h <;> rw [h] <;> decide
  rw [if_neg hkind]
  exact (h.reads (Nat.le_refl 1) (by decide)).expression hroom rfl

/-- Nothing is skipped before a token of another class. -/
theorem yields_skip_kinds_none {kinds : List TokenKind} {pieces : List Piece} (steps : Nat)
    (h : (front pieces).kind ∉ kinds) : Yields (skipKinds kinds steps) pieces () pieces := by
  cases steps with
  | zero => exact yields_pure () pieces
  | succ steps =>
      refine yields_peek fun token hfits => ?_
      have hcontains : kinds.contains token.kind = false := by
        rw [hfits.kind, List.contains_eq_mem]
        exact decide_eq_false h
      rw [hcontains]
      exact yields_pure () pieces

/-- The program of one expression. -/
theorem Readable.program (h : Readable expr) {memoise : Bool} {steps depth : Nat}
    (hroom : Room steps depth expr.bare) :
    Yields (program memoise steps (depth + 1)) expr.bare [expr] [] := by
  have hstarts := front_bare h.formula []
  rw [List.append_nil] at hstarts
  have hpositive : 0 < expr.bare.length := by
    refine List.length_pos_iff.mpr fun hempty => ?_
    rw [hempty] at hstarts
    rcases hstarts with (h | h | h) | h <;> cases h
  have hsteps := hroom.steps
  obtain ⟨steps, rfl⟩ : ∃ fewer, steps = fewer + 2 := ⟨steps - 2, by omega⟩
  have hsemi : (front expr.bare).kind ∉ [TokenKind.semi] := by
    rcases hstarts with (h | h | h) | h <;> rw [h] <;> decide
  refine (yields_skip_kinds_none _ hsemi).bind (yields_peek fun token hfits => ?_)
  have hnext : [TokenKind.eof].contains token.kind = false := by
    rw [hfits.kind]
    rcases hstarts with (h | h | h) | h <;> rw [h] <;> decide
  rw [hnext]
  refine (h.statement hroom).bind ?_
  refine (yields_skip_kinds_none _ (by decide)).bind (yields_peek fun token hfits => ?_)
  have hend : [TokenKind.eof].contains token.kind = true := by
    rw [hfits.kind]
    rfl
  rw [if_pos hend]
  exact yields_pure [expr] []

end Grammar

namespace Expr

/-- The text of an expression is read as this expression again. -/
theorem parse_render {expr : Expr} (h : expr.Formula) :
    ∃ tokens program, Token.tokenize expr.render = .ok tokens ∧
      Program.ofTokens tokens = .ok program ∧ program.toExpr? = some expr := by
  have hproper := h.proper
  obtain ⟨tokens, htokens, hfits⟩ := Token.tokenize_joined fun piece hpiece =>
    (hproper piece hpiece).writable
  refine ⟨tokens, [expr], htokens, ?_, rfl⟩
  have hlength := hfits.length_eq
  rw [List.length_append, List.length_singleton] at hlength
  have hshows : (Cursor.start tokens).Shows expr.bare :=
    ⟨rfl, hfits, fun piece hpiece => (hproper piece hpiece).inside,
      fun piece hpiece => (hproper piece hpiece).noAssignment⟩
  have hroom : Grammar.Room (tokens.length + 1) tokens.length expr.bare :=
    ⟨by omega, by omega⟩
  obtain ⟨next, hrun, -⟩ :=
    (Grammar.readable_of_formula h).program hroom (Cursor.start tokens) [] hshows
  unfold Program.ofTokens Program.ofTokensWithin
  rw [hrun]
  rfl

/-- A callee that is an attribute, a negation after `is` that is not one of `is not`, and a power
of a negative number. -/
def negatedPower : Expr :=
  .binary .is (.call (.getAttribute (.name "a") "in") [.int 1, .name "b"])
    (.unary .not (.binary .power (.unary .negate (.int 2)) (.index (.name "b") (.int 3))))

theorem parse_render_negated_power :
    negatedPower.render = "( a . in ) ( 1 , b ) is ! ( - 2 ** b [ 3 ] )" ∧
      negatedPower.Formula ∧
      ∃ tokens program, Token.tokenize negatedPower.render = .ok tokens ∧
        Program.ofTokens tokens = .ok program ∧ program.toExpr? = some negatedPower := by
  have ha : (Expr.name "a").Formula := .name (by decide) (by decide) (by decide)
  have hb : (Expr.name "b").Formula := .name (by decide) (by decide) (by decide)
  have hint (n : Nat) (h : n < 2 ^ 63) : (Expr.int n).Formula := .int h
  have hitems : ∀ item ∈ [Expr.int 1, Expr.name "b"], item.Formula :=
    List.forall_mem_cons.mpr ⟨hint 1 (by decide), List.forall_mem_singleton.mpr hb⟩
  have hformula : negatedPower.Formula :=
    .binary .is (.call (.getAttribute (by decide) ha) hitems)
      (.unary .not (.binary .power (.unary .negate (hint 2 (by decide)))
        (.index hb (hint 3 (by decide)))))
  exact ⟨by decide +kernel, hformula, parse_render hformula⟩

end Expr

end Script
