import Mathlib.Data.List.Nodup
import Script.Proofs.Parser.Finds
import Script.Proofs.Parser.Rules

/-!
# Parsers of well-formed trees

If the parsers of the nonterminals one level deeper find well-formed expressions only, then so do
the rules of the grammar. Hence every program is well-formed that is read from the tokens of a
source, whatever the limit on its depth and with braces remembered or not:
`Program.well_formed_of_tokens`.
-/

namespace Script

open Script.Expr (AllWellFormed)
open Token (IsName)

namespace Grammar

open Script.Parser

/-- The deeper parsers of a grammar find well-formed expressions. -/
structure Sound (g : Grammar) : Prop where
  parse (nonterminal : Nonterminal) : Finds (g.parse nonterminal) Expr.WellFormed
  branch : Finds (g.parse .conditional) fun expr => expr.WellFormed ∧ expr.IsBranch

/-- What is reserved is refused. -/
theorem finds_reject_reserved : Finds rejectReserved fun _ => True :=
  .peek fun _ _ => .ite (fun _ => .fail _ _ _) fun _ =>
    .ite (fun _ => .fail _ _ _) fun _ => .pure trivial

/-- Names each preceded by a dot. -/
theorem finds_dotted_names (steps : Nat) (done : List String) :
    Finds (dottedNames steps done) fun _ => True := by
  induction steps generalizing done with
  | zero => exact .too_deep
  | succ steps ih =>
      exact .branch (.accept .dot) (.bind .expect_name fun _ _ => ih _) (.pure trivial)

/-- One of several operators. -/
theorem finds_operator_among (operators : List BinaryOperator) :
    Finds (operatorAmong operators) fun _ => True := by
  refine .peek fun token _ => ?_
  cases operators.find? fun operator => token.isOp operator.symbol with
  | none => exact .pure trivial
  | some operator => exact .advance fun _ _ => .pure trivial

/-- An operator that is a keyword. -/
theorem finds_keyword_operator (operator : BinaryOperator) :
    Finds (keywordOperator operator) fun _ => True :=
  .branch (.accept_keyword _) (.pure trivial) (.pure trivial)

/-- The operator of a comparison. -/
theorem finds_comparison_operator : Finds comparisonOperator? fun _ => True := by
  refine .bind (finds_operator_among _) fun found _ => ?_
  cases found with
  | some operator => exact .pure trivial
  | none =>
      refine .branch (.accept_keyword _) ?_ ?_
      · exact .branch (.accept_keyword _) (.pure trivial) (.pure trivial)
      refine .branch (.accept_keyword _) (.pure trivial) ?_
      refine .peek fun _ _ => .get fun _ _ => .ite (fun _ => ?_) fun _ => .pure trivial
      exact .advance fun _ _ => .advance fun _ _ => .pure trivial

/-- The names after commas are names. -/
theorem comma_names_sound {rest : List Token} (h : ∀ t ∈ rest, t.Sound) :
    ∀ name ∈ (commaNames rest).1, IsName name := by
  fun_induction commaNames rest with
  | case1 comma name rest htest names after heq ih =>
      obtain ⟨-, hname, hrest⟩ :=
        List.forall_mem_cons.mp h |>.imp_right List.forall_mem_cons.mp
      rw [heq] at ih
      have hkind : name.kind = .name := of_decide_eq_true (Bool.and_eq_true_iff.mp htest).2
      exact List.forall_mem_cons.mpr ⟨hname.name hkind, ih hrest⟩
  | case2 comma name rest htest => exact List.forall_mem_nil _
  | case3 tokens hshort => exact List.forall_mem_nil _

/-- Any number of tokens further on. -/
theorem skip_tokens_sound {cursor : Cursor} (h : cursor.Sound) (count : Nat) :
    (skipTokens count cursor).Sound := by
  induction count generalizing cursor with
  | zero => exact h
  | succ count ih => exact ih h.advance

/-- At a name, the names before an equals sign are two or more. -/
theorem finds_destructure_names {cursor : Cursor} (hcursor : cursor.Sound)
    (hkind : cursor.peek.kind = .name) :
    FindsAt cursor destructureNames? fun found => ∀ names ∈ found,
      2 ≤ names.length ∧ ∀ name ∈ names, IsName name := by
  intro memo hmemo
  have hnames := comma_names_sound fun t (ht : t ∈ cursor.rest.tail) =>
    hcursor t (List.mem_of_mem_tail ht)
  unfold destructureNames?
  dsimp only
  split
  · rename_i htest
    obtain ⟨hsome, -⟩ := Bool.and_eq_true_iff.mp htest
    refine .ok ?_ (skip_tokens_sound hcursor _) hmemo
    rintro _ ⟨rfl⟩
    refine ⟨?_, List.forall_mem_cons.mpr ⟨hcursor.peek.name hkind, hnames⟩⟩
    rw [List.length_cons]
    exact Nat.succ_le_succ (List.length_pos_iff.mpr (by simpa using hsome))
  · exact .ok nofun hcursor hmemo

/-- The bytes of an ASCII text. -/
theorem ascii_bytes {text : String} (h : ∀ c ∈ text.toList, c.toNat < 128) :
    ∀ byte ∈ text.toList.map (·.toNat.toUInt8), byte < 128 := by
  intro byte hbyte
  obtain ⟨c, hc, rfl⟩ := List.mem_map.mp hbyte
  have hascii := h c hc
  rw [UInt8.lt_iff_toNat_lt, UInt8.toNat_ofNat']
  exact Nat.lt_of_le_of_lt (Nat.mod_le _ _) hascii

/-- Looking a brace up finds what reading it has found. -/
theorem finds_remembered {form : Parser Expr} (h : Finds form Expr.WellFormed) :
    Finds (remembered form) Expr.WellFormed := by
  intro cursor hcursor memo hmemo
  unfold remembered
  cases hlookup : memo.lookup cursor.index with
  | some entry =>
      obtain ⟨before, after, rfl, -⟩ := List.lookup_eq_some_iff.mp hlookup
      cases entry with
      | error error => exact .failed hmemo
      | ok found =>
          obtain ⟨hexpr, hafter⟩ := hmemo _ _ _ (List.mem_append_right before List.mem_cons_self)
          exact .ok hexpr hafter hmemo
  | none =>
      have hfound := h cursor hcursor memo hmemo
      dsimp only
      generalize form cursor memo = run at hfound ⊢
      cases hfound with
      | @ok expr after memo hexpr hafter hmemo =>
          refine .ok hexpr hafter fun index other place hmem => ?_
          obtain heq | hmem := List.mem_cons.mp hmem
          · cases heq
            exact ⟨hexpr, hafter⟩
          · exact hmemo index other place hmem
      -- An error is remembered too, but of a source that is too deep nothing is.
      | @failed failure memo hmemo =>
          cases failure with
          | tooDeep => exact .failed hmemo
          | wrong error =>
              refine .failed fun index other place hmem => ?_
              obtain heq | hmem := List.mem_cons.mp hmem
              · cases heq
              · exact hmemo index other place hmem

namespace Sound

variable {g : Grammar} (hg : g.Sound)

/-- The name of a type. -/
theorem type_name (g : Grammar) (depth : Nat) : Finds (typeName g depth) fun _ => True := by
  induction depth with
  | zero => exact .too_deep
  | succ depth ih =>
      refine .peek fun _ _ => .ite (fun _ => .fail_then _ _ _) fun _ => .advance fun _ _ => ?_
      refine .branch (.accept .lbrack) ?_ (.pure trivial)
      refine .bind ih fun first _ => ?_
      refine .bind (.comma_tail ih g.steps (fun _ _ => trivial) none) fun _ _ => ?_
      exact .skip (.expect .rbrack) (.pure trivial)

/-- The type after a colon. -/
theorem type_after_colon (g : Grammar) : Finds (typeAfterColon? g) fun _ => True :=
  .branch (.accept .colon) (.bind (type_name g g.depth) fun _ _ => .pure trivial) (.pure trivial)

/-- Any number of semicolons. -/
theorem separators (g : Grammar) : Finds (separators g) fun _ => True :=
  .skip_kinds _ _

/-- Distinct names of parameters. -/
theorem parameters (g : Grammar) (steps : Nat) {done : List String} (hdistinct : done.Nodup)
    (hdone : ∀ name ∈ done, IsName name) :
    Finds (parameters g steps done) fun names => names.Nodup ∧ ∀ name ∈ names, IsName name := by
  have hreverse {names : List String} (hdistinct : names.Nodup)
      (hnames : ∀ name ∈ names, IsName name) :
      Finds (Pure.pure names.reverse) fun names => names.Nodup ∧ ∀ name ∈ names, IsName name :=
    .pure ⟨List.nodup_reverse.mpr hdistinct, fun name hname => hnames name
      (List.mem_reverse.mp hname)⟩
  induction steps generalizing done with
  | zero => exact .too_deep
  | succ steps ih =>
      refine .peek fun _ _ => .ite (fun _ => hreverse hdistinct hdone) fun _ => ?_
      refine .bind (.expect .name) fun token htoken => ?_
      -- A name that is there already is refused, so the one that is taken is new.
      refine .ite (fun _ => .fail_then _ _ _) fun hnew => .skip (type_after_colon g) ?_
      have hmore : (token.text :: done).Nodup :=
        List.nodup_cons.mpr ⟨fun hmem => hnew (List.contains_iff_mem.mpr hmem), hdistinct⟩
      have hnames := List.forall_mem_cons.mpr ⟨htoken.2.name htoken.1, hdone⟩
      exact .branch (.accept .comma) (ih hmore hnames) (hreverse hmore hnames)

/-- Names of members. -/
theorem member_names (g : Grammar) (steps : Nat) {done : List String}
    (hdone : ∀ name ∈ done, IsName name) :
    Finds (memberNames g steps done) fun names => ∀ name ∈ names, IsName name := by
  induction steps generalizing done with
  | zero => exact .too_deep
  | succ steps ih =>
      refine .peek_at fun cursor hcursor => .ite
        (fun _ => Finds.reverse hdone cursor hcursor) fun hkind => .advance ?_
      have hname := hcursor.peek.name (Decidable.not_not.mp hkind)
      have hmore := List.forall_mem_cons.mpr ⟨hname, hdone⟩
      have hrest := Finds.skip (type_after_colon g)
        (.branch (.accept .comma) (ih hmore) (.reverse hmore))
      exact hrest cursor.advance hcursor.advance

/-- Names between braces. -/
theorem name_list (g : Grammar) : Finds (nameList g) fun names => ∀ name ∈ names, IsName name :=
  .skip (.expect .lbrace) (.bind (member_names g g.steps (List.forall_mem_nil _)) fun _ hnames =>
    .skip (.expect .rbrace) (.pure hnames))

/-- The bases of a class. -/
theorem class_bases (g : Grammar) :
    Finds (classBases g) fun bases => ∀ base ∈ bases, IsName base := by
  refine .branch (.accept_keyword _) ?_ ?_
  · exact .bind .expect_name fun base hbase => .pure (List.forall_mem_singleton.mpr hbase)
  refine .branch (.accept .lparen) ?_ (.pure nofun)
  refine .bind (.comma_items .expect_name g.steps (List.forall_mem_nil _) .rparen)
    fun bases hbases => ?_
  exact .skip (.expect .rparen) (.pure hbases)

include hg

/-! ## Statements -/

/-- Statements between braces. -/
theorem block : Finds (block g) AllWellFormed := by
  refine .skip (.expect .lbrace) (.skip (separators g) ?_)
  refine .bind (.items_until (hg.parse .statement) g.steps (List.forall_mem_nil _) _
    (separators g)) fun body hbody => ?_
  exact .skip (.expect .rbrace) (.pure hbody)

/-- A name bound to a value. -/
theorem let_bind : Finds (letBind g) fun expr => expr.WellFormed ∧ expr.IsMember := by
  refine .skip (.expect_keyword _) (.bind .expect_name fun name hname => ?_)
  refine .bind (type_after_colon g) fun declared _ => .skip (.expect_op _) ?_
  refine .bind (hg.parse .expression) fun value hvalue => ?_
  cases declared with
  | none => exact .pure ⟨.intro hname (.cons hvalue .nil), trivial⟩
  | some typeName => exact .pure ⟨.intro hname (.cons hvalue .nil), trivial⟩

/-- A name bound to a value for good. -/
theorem const_bind : Finds (constBind g) Expr.WellFormed := by
  refine .skip (.expect_keyword _) (.bind .expect_name fun name hname => ?_)
  refine .skip (type_after_colon g) (.skip (.expect_op _) ?_)
  exact .bind (hg.parse .expression) fun value hvalue => .pure (.intro hname (.cons hvalue .nil))

/-- A conditional. -/
theorem conditional : Finds (conditional g) fun expr => expr.WellFormed ∧ expr.IsBranch := by
  refine .skip (.expect_keyword _) (.bind (hg.parse .disjunction) fun test htest => ?_)
  refine .bind hg.block fun thenBody hthen => .branch (.accept_keyword _) ?_ ?_
  · refine .peek fun _ _ => .ite (fun _ => ?_) fun _ => ?_
    · refine .bind hg.branch fun branch hbranch => .pure ⟨.ifThen htest hthen ?_, trivial⟩
      rintro _ ⟨rfl⟩
      exact hbranch
    · refine .bind hg.block fun elseBody helse => .pure ⟨.ifThen htest hthen ?_, trivial⟩
      rintro _ ⟨rfl⟩
      exact ⟨.intro trivial helse, trivial⟩
  · exact .pure ⟨.ifThen htest hthen nofun, trivial⟩

/-- A `while` loop. -/
theorem while_loop : Finds (whileLoop g) Expr.WellFormed := by
  refine .skip (.expect_keyword _) (.bind (hg.parse .disjunction) fun test htest => ?_)
  exact .bind hg.block fun body hbody => .pure (.intro trivial (.cons htest hbody))

/-- A `for` loop. -/
theorem for_loop : Finds (forLoop g) Expr.WellFormed := by
  refine .skip (.expect_keyword _) (.bind .expect_name fun binder hbinder => ?_)
  refine .skip (.expect_keyword _) (.bind (hg.parse .disjunction) fun iterable hiterable => ?_)
  exact .bind hg.block fun body hbody => .pure (.intro hbinder (.cons hiterable hbody))

/-- The body of a function. -/
theorem function_body {name : String} {names : List String} (hname : IsName name)
    (hnames : names.Nodup ∧ ∀ parameter ∈ names, IsName parameter) :
    Finds (do Grammar.separators g; return Expr.defineFunction name names (← Grammar.block g))
      fun expr => expr.WellFormed ∧ expr.IsMember :=
  .skip (separators g) (.bind hg.block fun _ hbody =>
    .pure ⟨.intro ⟨hname, hnames⟩ hbody, trivial⟩)

/-- A function. -/
theorem function_definition :
    Finds (functionDefinition g) fun expr => expr.WellFormed ∧ expr.IsMember := by
  refine .skip (.expect_keyword _) (.bind .expect_name fun name hname => ?_)
  refine .skip (.expect .lparen) (.bind (parameters g g.steps .nil (List.forall_mem_nil _))
    fun names hnames => ?_)
  refine .skip (.expect .rparen) (.peek fun _ _ => ?_)
  have hbody := hg.function_body hname hnames
  exact .ite (fun _ => .advance fun _ _ => .skip (type_name g g.depth) hbody) fun _ => hbody

/-- A `return`. -/
theorem return_statement : Finds (returnStatement g) Expr.WellFormed := by
  refine .bind (.expect_keyword _) fun keyword _ => .peek fun _ _ => ?_
  refine .ite (fun _ => .pure (.intro trivial .nil)) fun _ => ?_
  exact .bind (hg.parse .expression) fun value hvalue => .pure (.intro trivial (.cons hvalue .nil))

/-- An arm of a `match`. -/
theorem match_arm : Finds (matchArm g) fun arm => arm.1.WellFormed ∧ arm.2.WellFormed := by
  refine .bind (hg.parse .disjunction) fun pattern hpattern => .skip (.expect_op _) ?_
  exact .bind (hg.parse .statement) fun result hresult => .pure ⟨hpattern, hresult⟩

/-- A `match`. -/
theorem match_statement : Finds (matchStatement g) Expr.WellFormed := by
  refine .skip (.expect_keyword _) (.bind (hg.parse .disjunction) fun subject hsubject => ?_)
  refine .skip (.expect .lbrace) ?_
  refine .bind (.items_until hg.match_arm g.steps (List.forall_mem_nil _) _ (.skip_kinds _ _))
    fun arms harms => ?_
  exact .skip (.expect .rbrace) (.pure (.intro trivial (.cons hsubject (.pairs harms))))

/-- A `try` with its handler. -/
theorem try_catch : Finds (tryCatch g) Expr.WellFormed := by
  refine .skip (.expect_keyword _) (.bind hg.block fun body hbody => ?_)
  refine .skip (.expect_keyword _) (.peek_at fun cursor hcursor => ?_)
  have hhandler (binder : Option String) (hbinder : ∀ name ∈ binder, IsName name) :
      Finds (do return Expr.tryCatch body binder (← Grammar.block g)) Expr.WellFormed :=
    .bind hg.block fun handler hhandler => .pure (.intro hbinder (.append hbody hhandler))
  refine .ite (fun hkind => .advance (hhandler _ ?_ _ hcursor.advance)) fun _ => ?_
  · rintro _ ⟨rfl⟩
    exact hcursor.peek.name hkind
  · exact hhandler none nofun cursor hcursor

/-- A `throw`. -/
theorem throw_statement : Finds (throwStatement g) Expr.WellFormed := by
  refine .skip (.expect_keyword _) (.bind (hg.parse .disjunction) fun value hvalue => ?_)
  refine .branch (.accept_keyword _) ?_ ?_
  · exact .bind (hg.parse .disjunction) fun cause hcause =>
      .pure (.intro trivial (.cons hvalue (.cons hcause .nil)))
  · exact .pure (.intro trivial (.cons hvalue .nil))

omit hg in
/-- An `import`. -/
theorem import_statement (g : Grammar) : Finds (importStatement g) Expr.WellFormed := by
  refine .skip (.expect_keyword _) (.peek fun _ _ => .ite (fun _ => ?_) fun _ => ?_)
  · exact .advance fun _ _ => .pure (.intro trivial .nil)
  · refine .bind .expect_name fun _ _ => .bind (finds_dotted_names _ _) fun _ _ => ?_
    exact .pure (.intro trivial .nil)

/-- A member of a class. -/
theorem class_member : Finds (classMember g) fun expr => expr.WellFormed ∧ expr.IsMember := by
  refine .peek fun token htoken => .ite (fun _ => hg.function_definition) fun _ => ?_
  refine .ite (fun _ => hg.let_bind) fun _ => .ite (fun hname => ?_) fun _ => .fail _ _ _
  refine .advance fun _ _ => .skip (type_after_colon g) (.skip (.expect_op _) ?_)
  exact .bind (hg.parse .expression) fun value hvalue =>
    .pure ⟨.intro (htoken.name hname) (.cons hvalue .nil), trivial⟩

/-- A class. -/
theorem class_definition : Finds (classDefinition g) Expr.WellFormed := by
  refine .skip (.expect_keyword _) (.bind .expect_name fun name hname => ?_)
  refine .bind (class_bases g) fun bases hbases => ?_
  refine .skip (.expect .lbrace) (.skip (separators g) ?_)
  refine .bind (.items_until hg.class_member g.steps (List.forall_mem_nil _) _ (separators g)) ?_
  intro members hmembers
  refine .skip (.expect .rbrace) (.pure (.intro ⟨hname, hbases, ?_⟩ ?_))
  · exact fun member hmember => (hmembers member hmember).2
  · exact fun member hmember => (hmembers member hmember).1

omit hg in
/-- A struct. -/
theorem struct_definition (g : Grammar) : Finds (structDefinition g) Expr.WellFormed :=
  .skip (.expect_keyword _) (.bind .expect_name fun _ hname =>
    .bind (name_list g) fun _ hnames => .pure (.intro ⟨hname, hnames⟩ .nil))

omit hg in
/-- An enumeration. -/
theorem enum_definition (g : Grammar) : Finds (enumDefinition g) Expr.WellFormed :=
  .skip (.expect_keyword _) (.bind .expect_name fun _ hname =>
    .bind (name_list g) fun _ hnames => .pure (.intro ⟨hname, hnames⟩ .nil))

/-! ## Expressions -/

/-- Arguments in parentheses. -/
theorem call_arguments : Finds (callArguments g) AllWellFormed := by
  refine .skip (.expect .lparen) ?_
  refine .bind (.comma_items (hg.parse .expression) g.steps (List.forall_mem_nil _) .rparen)
    fun items hitems => ?_
  exact .skip (.expect .rparen) (.pure hitems)

/-- A field of a record. -/
theorem record_field :
    Finds (recordField g) fun field => IsName field.1 ∧ field.2.WellFormed := by
  refine .bind .expect_name fun name hname => .skip (.expect .colon) ?_
  exact .bind (hg.parse .expression) fun value hvalue => .pure ⟨hname, hvalue⟩

/-- A new object or record. -/
theorem new_expression : Finds (newExpression g) Expr.WellFormed := by
  refine .skip (.expect_keyword _) (.bind .expect_name fun name hname => ?_)
  refine .peek fun _ _ => .ite (fun _ => ?_) fun _ => .skip (.expect .lbrace) ?_
  · exact .bind hg.call_arguments fun items hitems => .pure (.intro hname hitems)
  refine .bind (.comma_items hg.record_field g.steps (List.forall_mem_nil _) .rbrace)
    fun fields hfields => ?_
  refine .skip (.expect .rbrace) (.pure (.intro ⟨hname, fun field hfield => ?_⟩ ?_))
  · exact (hfields field hfield).1
  · exact List.forall_mem_map.mpr fun field hfield => (hfields field hfield).2

/-- An expression in parentheses, or a tuple. -/
theorem parenthesised : Finds (parenthesised g) Expr.WellFormed := by
  refine .skip (.expect .lparen) (.branch (.accept .rparen) (.pure (.intro trivial .nil)) ?_)
  refine .bind (hg.parse .expression) fun first hfirst => .branch (.accept .comma) ?_ ?_
  · refine .bind (.comma_items (hg.parse .expression) g.steps
      (AllWellFormed.cons hfirst .nil) .rparen) fun items hitems => ?_
    exact .skip (.expect .rparen) (.pure (.intro trivial hitems))
  · exact .skip (.expect .rparen) (.pure hfirst)

/-- A list or a comprehension. -/
theorem bracketed : Finds (bracketed g) Expr.WellFormed := by
  refine .skip (.expect .lbrack) (.branch (.accept .rbrack) (.pure (.intro trivial .nil)) ?_)
  refine .bind (hg.parse .expression) fun first hfirst => .branch (.accept_keyword _) ?_ ?_
  · refine .bind .expect_name fun binder hbinder => .skip (.expect_keyword _) ?_
    refine .bind (hg.parse .disjunction) fun iterable hiterable => ?_
    exact .skip (.expect .rbrack)
      (.pure (.intro hbinder (.cons hfirst (.cons hiterable .nil))))
  · refine .bind (.comma_tail (hg.parse .expression) g.steps
      (AllWellFormed.cons hfirst .nil) _) fun items hitems => ?_
    exact .skip (.expect .rbrack) (.pure (.intro trivial hitems))

/-- An entry of a dictionary. -/
theorem dict_pair : Finds (dictPair g) fun pair => pair.1.WellFormed ∧ pair.2.WellFormed := by
  refine .bind (hg.parse .disjunction) fun key hkey => .skip (.expect .colon) ?_
  exact .bind (hg.parse .expression) fun value hvalue => .pure ⟨hkey, hvalue⟩

/-- The rest of a dictionary or a set. -/
theorem collection_tail {first : Expr} (hfirst : first.WellFormed) :
    Finds (collectionTail? g first) fun found => ∀ expr ∈ found, expr.WellFormed := by
  refine .branch (.accept .colon) ?_ (.branch (.accept .comma) ?_ (.pure nofun))
  · refine .bind (hg.parse .expression) fun value hvalue => ?_
    refine .bind (.comma_tail hg.dict_pair g.steps
      (List.forall_mem_singleton.mpr ⟨hfirst, hvalue⟩) _) fun pairs hpairs => ?_
    refine .skip (.expect .rbrace) (.pure ?_)
    rintro _ ⟨rfl⟩
    exact .intro trivial (.pairs hpairs)
  · refine .bind (.comma_items (hg.parse .disjunction) g.steps
      (AllWellFormed.cons hfirst .nil) .rbrace) fun items hitems => ?_
    refine .skip (.expect .rbrace) (.pure ?_)
    rintro _ ⟨rfl⟩
    exact .intro trivial hitems

/-- A block, as an expression. -/
theorem block_expr : Finds (Simulation.blockExpr g) Expr.WellFormed :=
  .bind hg.block fun _ hbody => .pure (.intro trivial hbody)

/-- What an opening brace starts, read afresh. -/
theorem brace_form : Finds (braceForm g) Expr.WellFormed := by
  have hblock := hg.block_expr
  refine .get fun start hstart => .ite (fun _ => ?_) fun _ => .ite (fun _ => hblock) fun _ => ?_
  · exact .advance fun _ _ => .advance fun _ _ => .pure (.intro trivial .nil)
  refine .advance fun _ _ => .bind (.attempt (hg.parse .disjunction)) fun found hfound => ?_
  cases found with
  | none => exact .set hstart hblock
  | some first =>
      refine .bind (hg.collection_tail (hfound first rfl)) fun collection hcollection => ?_
      cases collection with
      | none => exact .set hstart hblock
      | some expr => exact .pure (hcollection expr rfl)

/-- What an opening brace starts. -/
theorem braced : Finds (braced g) Expr.WellFormed :=
  .ite (fun _ => finds_remembered hg.brace_form) fun _ => hg.brace_form

/-- An expression with no operator around it. -/
theorem primary : Finds (primary g) Expr.WellFormed := by
  refine .skip finds_reject_reserved (.peek_at fun cursor hcursor => ?_)
  have htoken := hcursor.peek
  -- Literals and names rely on the class of the token, so the place is left to each class.
  have hrefused : Finds (unexpected cursor.peek expressionStarts) Expr.WellFormed :=
    .fail _ _ _
  have hliteral {expr : Expr} (h : expr.WellFormed) :
      Finds (do let _ ← Parser.advance; return expr) Expr.WellFormed :=
    .advance fun _ _ => .pure h
  cases hkind : cursor.peek.kind
  all_goals dsimp only
  case int =>
    refine (hliteral ?_) cursor hcursor
    exact .intro (htoken.int hkind) .nil
  case bytes =>
    refine (hliteral ?_) cursor hcursor
    exact .intro (ascii_bytes (htoken.bytes hkind)) .nil
  case float | imag | string =>
    refine (hliteral ?_) cursor hcursor
    exact .intro trivial .nil
  case name =>
    refine .bind (finds_destructure_names hcursor hkind) fun found hfound => ?_
    cases found with
    | some names =>
        exact .bind (hg.parse .expression) fun value hvalue =>
          .pure (.intro (hfound names rfl) (.cons hvalue .nil))
    | none => exact hliteral (.intro (htoken.name hkind) .nil)
  case keyword =>
    split
    case h_1 | h_2 | h_3 =>
      refine (hliteral ?_) cursor hcursor
      exact .intro trivial .nil
    case h_4 => exact hg.new_expression cursor hcursor
    case h_5 => exact hg.conditional.mono (fun _ hexpr => hexpr.1) cursor hcursor
    case h_6 => exact hg.match_statement cursor hcursor
    case h_7 => exact hg.try_catch cursor hcursor
    case h_8 => exact hrefused cursor hcursor
  case lparen => exact hg.parenthesised cursor hcursor
  case lbrack => exact hg.bracketed cursor hcursor
  case lbrace => exact hg.braced cursor hcursor
  all_goals exact hrefused cursor hcursor

/-- What follows a dot: only the receiver of a method has fields of its own. -/
theorem attribute_access {object : Expr} (hobject : object.WellFormed) :
    Finds (attributeAccess g object) Expr.WellFormed := by
  refine .peek fun token _ => .ite (fun _ => .fail_then _ _ _) fun _ => .advance fun _ _ => ?_
  refine .peek fun _ _ => .get fun _ _ => .ite (fun _ => ?_) fun _ => ?_
  · exact .bind hg.call_arguments fun items hitems =>
      .pure (.intro trivial (.cons hobject hitems))
  · split
    · exact .pure (.intro rfl (.cons hobject .nil))
    · rename_i hother
      exact .pure (.intro hother (.cons hobject .nil))

/-- Calls, indices, attributes and variants after an expression. -/
theorem postfix_chain (steps : Nat) {expr : Expr} (hexpr : expr.WellFormed) :
    Finds (postfixChain g steps expr) Expr.WellFormed := by
  induction steps generalizing expr with
  | zero => exact .too_deep
  | succ steps ih =>
      refine .peek fun token _ => .get fun _ _ => .ite (fun _ => ?_) fun _ => ?_
      · exact .bind hg.call_arguments fun items hitems => ih (.intro trivial (.cons hexpr hitems))
      refine .ite (fun _ => .advance fun _ _ => ?_) fun _ => ?_
      · refine .bind (hg.parse .expression) fun index hindex => .skip (.expect .rbrack) ?_
        exact ih (.intro trivial (.cons hexpr (.cons hindex .nil)))
      refine .ite (fun _ => .advance fun _ _ => ?_) fun _ => .ite (fun _ => ?_) fun _ => .pure hexpr
      · exact .bind (hg.attribute_access hexpr) fun next hnext => ih hnext
      split
      · refine .advance fun _ _ => .bind .expect_name fun variant hvariant => ?_
        exact ih (.intro ⟨hexpr.proper, hvariant⟩ .nil)
      · exact .pure hexpr

/-- An expression with what follows it directly. -/
theorem postfixed : Finds (postfixed g) Expr.WellFormed :=
  .bind hg.primary fun _ hexpr => hg.postfix_chain g.steps hexpr

/-- Unary operators. -/
theorem unary : Finds (unary g) Expr.WellFormed := by
  refine .peek fun token _ => ?_
  cases unaryOperator? token with
  | none => exact hg.postfixed
  | some operator =>
      exact .advance fun _ _ => .bind (hg.parse .unary) fun _ hoperand => .pure (.unary hoperand)

/-- Powers. -/
theorem power : Finds (power g) Expr.WellFormed := by
  refine .bind hg.unary fun base hbase => .peek fun _ _ => .ite (fun _ => ?_) fun _ => .pure hbase
  exact .advance fun _ _ => .bind (hg.parse .power) fun _ hexponent =>
    .pure (.binary hbase hexponent)

/-- The arithmetic and bitwise operators of the given levels. -/
theorem arithmetic (levels : List (List BinaryOperator)) :
    Finds (arithmetic g levels) Expr.WellFormed := by
  induction levels with
  | nil => exact hg.power
  | cons operators tighter ih =>
      exact .bind ih fun first hfirst => .left_chain (finds_operator_among _) ih _ hfirst

/-- Comparisons. -/
theorem comparison : Finds (comparison g) Expr.WellFormed :=
  .bind (hg.arithmetic _) fun _ hfirst =>
    .left_chain finds_comparison_operator (hg.arithmetic _) _ hfirst

/-- Equalities. -/
theorem equality : Finds (equality g) Expr.WellFormed :=
  .bind hg.comparison fun _ hfirst => .left_chain (finds_operator_among _) hg.comparison _ hfirst

/-- Conjunctions. -/
theorem conjunction : Finds (conjunction g) Expr.WellFormed :=
  .bind hg.equality fun _ hfirst => .left_chain (finds_keyword_operator _) hg.equality _ hfirst

/-- Disjunctions. -/
theorem disjunction : Finds (disjunction g) Expr.WellFormed :=
  .bind hg.conjunction fun _ hfirst =>
    .left_chain (finds_keyword_operator _) hg.conjunction _ hfirst

/-- Expressions and assignments. What is assigned to has been read as an expression, so its parts
are well-formed. -/
theorem expression : Finds (expression g) Expr.WellFormed := by
  refine .bind hg.disjunction fun left hleft => .peek fun token _ => ?_
  refine .ite (fun _ => .advance fun _ _ => ?_) fun _ => .pure hleft
  refine .bind (hg.parse .expression) fun value hvalue => ?_
  have hvalue : AllWellFormed [value] := .cons hvalue .nil
  -- The node that is read as a target is gone, and what is known of it or of its parts is left.
  split
  case h_1 => exact .pure (.intro hleft.proper hvalue)
  case h_5 => exact .fail _ _ _
  all_goals exact .pure (.intro trivial (.append hleft.parts hvalue))

/-- Statements. -/
theorem statement : Finds (statement g) Expr.WellFormed := by
  refine .skip finds_reject_reserved (.peek fun token _ => .ite (fun _ => ?_) fun _ =>
    hg.expression)
  split
  case h_1 => exact hg.let_bind.mono fun _ hexpr => hexpr.1
  case h_2 => exact hg.const_bind
  case h_3 => exact hg.conditional.mono fun _ hexpr => hexpr.1
  case h_4 => exact hg.while_loop
  case h_5 => exact hg.for_loop
  case h_6 => exact hg.function_definition.mono fun _ hexpr => hexpr.1
  case h_7 => exact hg.return_statement
  case h_8 => exact hg.match_statement
  case h_9 => exact hg.try_catch
  case h_10 => exact hg.throw_statement
  case h_11 => exact import_statement g
  case h_12 => exact hg.class_definition
  case h_13 => exact struct_definition g
  case h_14 => exact enum_definition g
  case h_15 => exact .advance fun _ _ => .pure (.intro trivial .nil)
  case h_16 => exact .advance fun _ _ => .pure (.intro trivial .nil)
  case h_17 => exact hg.expression

/-- The rules of all nonterminals. -/
theorem rule (nonterminal : Nonterminal) : Finds (rule g nonterminal) Expr.WellFormed := by
  cases nonterminal with
  | statement => exact hg.statement
  | expression => exact hg.expression
  | disjunction => exact hg.disjunction
  | power => exact hg.power
  | unary => exact hg.unary
  | conditional => exact hg.conditional.mono fun _ hexpr => hexpr.1

end Sound

/-- The parsers that may descend any number of levels find well-formed expressions. -/
theorem sound_parser_of (memoise : Bool) (steps depth : Nat) :
    Sound ⟨parserOf memoise steps depth, depth, steps, memoise⟩ := by
  induction depth with
  | zero => exact ⟨fun _ => .too_deep, .too_deep⟩
  | succ depth ih => exact ⟨ih.rule, ih.conditional⟩

/-- The statements of a program. -/
theorem finds_program (memoise : Bool) (steps depth : Nat) :
    Finds (program memoise steps depth) AllWellFormed :=
  .skip (Sound.separators _)
    (.items_until ((sound_parser_of memoise steps depth).parse .statement) steps
      (List.forall_mem_nil _) _ (Sound.separators _))

end Grammar

/-- A program that is read from sound tokens is well-formed. -/
theorem Program.well_formed_of_tokens {tokens : List Token} {memoise : Bool} {limit : Nat}
    {program : Program} (htokens : ∀ t ∈ tokens, t.Sound)
    (h : ofTokensWithin memoise limit tokens = .ok program) : AllWellFormed program := by
  have hfound := Grammar.finds_program memoise (tokens.length + 1) limit (Cursor.start tokens)
    htokens [] nofun
  unfold ofTokensWithin at h
  generalize Grammar.program memoise (tokens.length + 1) limit (Cursor.start tokens) [] = run
    at h hfound
  cases hfound with
  | ok hgood _ _ =>
      obtain rfl := Except.ok.inj h
      exact hgood
  | failed _ => cases h

end Script
