import Script.Proofs.Parser.Memo
import Script.Proofs.Token.Cover

/-!
# Where a postfix chain goes on

A call or an index continues the expression before it if its opening token stands on the line of
the last token of that expression; the parser compares the lines on which the two tokens start.
`ReadsPostfix` says which postfix expressions are read from a place on the way to the whole chain,
and `ReadsPostfix.onTheWay` that reading the whole is reading the rest of the chain from there. With
what the lexer says of lines, `continues_iff` tells in terms of the source when an opening
parenthesis or bracket continues a chain: no line break may lie before it, nor within the token
before it.
-/

namespace Script

open Script.Parser Grammar Cursor Simulation Token

/-- A postfix expression as far as it has been read: an expression, or an object with the name of
one of its members, of which a method may yet be called. -/
inductive Postfix where
  | whole (expr : Expr)
  | member (object : Expr) (name : String)

namespace Postfix

/-- The expression that is read if nothing follows. -/
def expr : Postfix → Expr
  | whole expr => expr
  | member object name => attributeOf object name

/-- The call that is read if arguments follow. -/
def called (items : List Expr) : Postfix → Expr
  | whole expr => .call expr items
  | member object name => .methodCall object name items

/-- What is read after a part of a chain, if no more than `steps` links follow the next one. -/
def rest (g : Grammar) (steps : Nat) : Postfix → Parser Expr
  | whole expr => postfixChain g (steps + 1) expr
  | member object name => attributeEnd g object name >>= postfixChain g (steps + 1)

/-- The link of a chain that an opening parenthesis or bracket starts: a call or an index. -/
def openedLink (g : Grammar) (read : Postfix) : Parser Expr := do
  if (← peek).kind = .lparen then
    return read.called (← callArguments g)
  else
    let _ ← advance
    let index ← g.parse .expression
    let _ ← expect .rbrack
    return .index read.expr index

end Postfix

/-- From the place `first`, an expression with some of the links that follow it is read up to a
place. -/
inductive ReadsPostfix (g : Grammar) (first : Cursor) (memo : BraceMemo) :
    Postfix → Cursor → BraceMemo → Prop where
  /-- An expression before any link. -/
  | alone {expr : Expr} {place : Cursor} {after : BraceMemo} :
      primary g first memo = (.ok (expr, place), after) →
      ReadsPostfix g first memo (.whole expr) place after
  /-- One link more. -/
  | link {expr next : Expr} {before place : Cursor} {between after : BraceMemo} :
      ReadsPostfix g first memo (.whole expr) before between →
      postfixLink? g expr before between = (.ok (some next, place), after) →
      ReadsPostfix g first memo (.whole next) place after
  /-- A dot and a name. -/
  | member {object : Expr} {before : Cursor} {between : BraceMemo} :
      ReadsPostfix g first memo (.whole object) before between → before.peek.kind = .dot →
      before.advance.peek.kind = .name ∨ before.advance.peek.kind = .keyword →
      ReadsPostfix g first memo (.member object before.advance.peek.text)
        before.advance.advance between

/-- The next token continues the chain: what is read from `first` is a call of what has been read
of it, or an index, and whatever follows that. -/
def Continues (g : Grammar) (first : Cursor) (memo : BraceMemo) (read : Postfix) (place : Cursor)
    (after : BraceMemo) : Prop :=
  ∃ steps, place.rest.length ≤ steps ∧
    postfixed g first memo = (read.openedLink g >>= postfixChain g steps) place after

/-- The chain ends before the next token. -/
def Stops (g : Grammar) (first : Cursor) (memo : BraceMemo) (read : Postfix) (place : Cursor)
    (after : BraceMemo) : Prop :=
  postfixed g first memo = (.ok (read.expr, place), after)

namespace Cursor

variable {tokens : List Token} {place : Cursor}

/-- The tokens that are left at a place are those from its number on. -/
theorem OnTrack.rest_eq (h : OnTrack tokens place) : place.rest = tokens.drop place.index := by
  obtain ⟨count, rfl⟩ := h
  induction count with
  | zero => rfl
  | succ count ih =>
      rw [skip_tokens_succ]
      by_cases heof : (skipTokens count (Cursor.start tokens)).peek.kind = .eof
      · rw [advance_at_end heof, ih]
      · rw [advance_eq heof]
        show (skipTokens count (Cursor.start tokens)).rest.tail = _
        rw [ih, List.tail_drop]

/-- The line that a place keeps is the one on which the token before it starts. -/
theorem OnTrack.previous_line (h : OnTrack tokens place) {i : Nat} (hindex : place.index = i + 1)
    (hi : i < tokens.length) : place.previousLine = some tokens[i].line := by
  obtain ⟨count, rfl⟩ := h
  induction count with
  | zero => cases hindex
  | succ count ih =>
      rw [skip_tokens_succ] at hindex ⊢
      by_cases heof : (skipTokens count (Cursor.start tokens)).peek.kind = .eof
      · rw [advance_at_end heof] at hindex ⊢
        exact ih hindex
      · have hrest : (skipTokens count (Cursor.start tokens)).rest = _ :=
          OnTrack.rest_eq ⟨count, rfl⟩
        rw [advance_eq heof] at hindex ⊢
        obtain rfl : (skipTokens count (Cursor.start tokens)).index = i := Nat.succ_inj.mp hindex
        simp only [peek, hrest, List.headD_eq_head?_getD, List.head?_drop,
          List.getElem?_eq_getElem hi, Option.getD_some]

/-- The next token at a place. -/
theorem OnTrack.peek_eq (h : OnTrack tokens place) (hi : place.index < tokens.length) :
    place.peek = tokens[place.index] := by
  rw [peek, h.rest_eq, List.headD_eq_head?_getD, List.head?_drop, List.getElem?_eq_getElem hi]
  rfl

end Cursor

/-- The same run, and then the same. -/
theorem Parser.bind_congr_at {α β : Type} {p q : Parser α} {next : α → Parser β}
    {place place' : Cursor} {memo memo' : BraceMemo} (h : p place memo = q place' memo') :
    (p >>= next) place memo = (q >>= next) place' memo' := by
  rw [run_bind, run_bind, h]

section Opened

variable {g : Grammar} {steps : Nat} {read : Postfix} {place : Cursor}
  (hopens : place.peek.kind = .lparen ∨ place.peek.kind = .lbrack) (memo : BraceMemo)
include hopens

/-- A parenthesis or bracket on the line of the token before it opens a link. -/
theorem Grammar.postfix_link_opened (expr : Expr) (hline : place.onSameLine = true) :
    postfixLink? g expr place memo =
      (do return some (← (Postfix.whole expr).openedLink g) : Parser (Option Expr)) place memo := by
  have hlink : postfixLink? g expr place memo =
      (if place.peek.kind = .lparen then do return some (.call expr (← callArguments g))
        else do
          let _ ← Parser.advance
          let index ← g.parse .expression
          let _ ← expect .rbrack
          return some (.index expr index) : Parser (Option Expr)) place memo := by
    show (if (decide (place.peek.kind = .lparen) && place.onSameLine) = true then _ else
      if (decide (place.peek.kind = .lbrack) && place.onSameLine) = true then _ else _ :
        Parser (Option Expr)) place memo = _
    rcases hopens with hkind | hkind <;> simp [hkind, hline]
  have hopened : (Postfix.whole expr).openedLink g place memo =
      (if place.peek.kind = .lparen then do return .call expr (← callArguments g)
        else do
          let _ ← Parser.advance
          let index ← g.parse .expression
          let _ ← expect .rbrack
          return .index expr index : Parser Expr) place memo := rfl
  rw [hlink, bind_congr_at hopened]
  split <;> simp only [bind_assoc, pure_bind]

/-- A parenthesis or bracket on a later line is left alone. -/
theorem Grammar.postfix_link_ended (expr : Expr) (hline : place.onSameLine = false) :
    postfixLink? g expr place memo = (.ok (none, place), memo) := by
  show (if (decide (place.peek.kind = .lparen) && place.onSameLine) = true then _ else
      if (decide (place.peek.kind = .lbrack) && place.onSameLine) = true then _ else
      if place.peek.kind = .dot then _ else if place.peek.isOp "::" = true then _ else _ :
        Parser (Option Expr)) place memo = _
  have hdot : place.peek.kind ≠ .dot := by
    rcases hopens with hkind | hkind <;> rw [hkind] <;> decide
  have hop : place.peek.isOp "::" = false := by
    rcases hopens with hkind | hkind <;> simp [Token.isOp, hkind]
  simp only [hline, hdot, hop, Bool.and_false, Bool.false_eq_true, if_false]
  rfl

/-- What is read after a part of a chain, at a parenthesis or bracket that opens a link. -/
theorem Postfix.rest_opened (hline : place.onSameLine = true) :
    ∃ fewer, steps ≤ fewer ∧
      read.rest g steps place memo = (read.openedLink g >>= postfixChain g fewer) place memo := by
  have hchain (expr : Expr) : postfixChain g (steps + 1) expr place memo =
      ((whole expr).openedLink g >>= postfixChain g steps) place memo := by
    rw [postfix_chain_succ, run_bind, postfix_link_opened hopens memo expr hline, run_bind,
      run_bind]
    generalize (whole expr).openedLink g place memo = run
    obtain ⟨_ | ⟨next, after⟩, _⟩ := run <;> rfl
  cases read with
  | whole expr => exact ⟨steps, Nat.le_refl _, hchain expr⟩
  | member object name =>
      show ∃ fewer, steps ≤ fewer ∧
        (attributeEnd g object name >>= postfixChain g (steps + 1)) place memo = _
      by_cases hkind : place.peek.kind = .lparen
      · -- The arguments are those of a method.
        refine ⟨steps + 1, Nat.le_succ steps, bind_congr_at ?_⟩
        show (if (decide (place.peek.kind = .lparen) && place.onSameLine) = true then _ else _ :
            Parser Expr) place memo =
          (if place.peek.kind = .lparen then _ else _ : Parser Expr) place memo
        rw [hline, if_pos hkind, if_pos (by simp [hkind])]
        rfl
      · have hend : attributeEnd g object name place memo =
            (pure (attributeOf object name) : Parser Expr) place memo := by
          show (if (decide (place.peek.kind = .lparen) && place.onSameLine) = true then _ else _ :
            Parser Expr) place memo = _
          rw [if_neg (by simp [hkind])]
        have hindex : (whole (attributeOf object name)).openedLink g place memo =
            (member object name).openedLink g place memo := by
          show (if place.peek.kind = .lparen then _ else _ : Parser Expr) place memo =
            (if place.peek.kind = .lparen then _ else _ : Parser Expr) place memo
          rw [if_neg hkind, if_neg hkind]
          rfl
        refine ⟨steps, Nat.le_refl _, ?_⟩
        rw [bind_congr_at hend, pure_bind, hchain, bind_congr_at hindex]

/-- Nothing more is read after a part of a chain, at a parenthesis or bracket that opens none. -/
theorem Postfix.rest_ended (hline : place.onSameLine = false) :
    read.rest g steps place memo = (.ok (read.expr, place), memo) := by
  have hchain (expr : Expr) : postfixChain g (steps + 1) expr place memo =
      (.ok (expr, place), memo) := by
    rw [postfix_chain_succ, run_bind, postfix_link_ended hopens memo expr hline]
    rfl
  cases read with
  | whole expr => exact hchain expr
  | member object name =>
      have hend : attributeEnd g object name place memo =
          (.ok (attributeOf object name, place), memo) := by
        show (if (decide (place.peek.kind = .lparen) && place.onSameLine) = true then _ else _ :
          Parser Expr) place memo = _
        rw [hline, Bool.and_false, if_neg (by decide)]
        rfl
      rw [Postfix.rest, run_bind, hend]
      exact hchain _

end Opened

/-- After a dot and a name, a link is what follows the name. -/
theorem Grammar.postfix_link_dot {g : Grammar} {place : Cursor} (object : Expr) (memo : BraceMemo)
    (hdot : place.peek.kind = .dot)
    (hword : place.advance.peek.kind = .name ∨ place.advance.peek.kind = .keyword) :
    postfixLink? g object place memo =
      (do return some (← attributeEnd g object place.advance.peek.text) : Parser (Option Expr))
        place.advance.advance memo := by
  have hlink : postfixLink? g object place memo =
      (do return some (← attributeAccess g object) : Parser (Option Expr))
        place.advance memo := by
    show (if (decide (place.peek.kind = .lparen) && place.onSameLine) = true then _ else
      if (decide (place.peek.kind = .lbrack) && place.onSameLine) = true then _ else
      if place.peek.kind = .dot then _ else _ : Parser (Option Expr)) place memo = _
    rw [hdot, if_neg (by simp), if_neg (by simp), if_pos rfl]
    rfl
  have hname : attributeAccess g object place.advance memo =
      attributeEnd g object place.advance.peek.text place.advance.advance memo := by
    rw [attribute_access_eq]
    show (if _ = true then _ else _ : Parser Expr) place.advance memo = _
    rw [if_neg (by rcases hword with hword | hword <;> simp [hword])]
    rfl
  rw [hlink, run_bind, run_bind, hname]

section Grammars

variable {tokens : List Token} {g g' : Grammar} {steps n k : Nat} {memo after : BraceMemo}
  {first place : Cursor} {read : Postfix}

/-- Where a parser stops that does the same as one without a memory. -/
theorem Simulation.Simulates.of_ok {α : Type} {Q : α → α → Cursor → Cursor → Prop}
    {p q : Parser α} {c d : Cursor} {result : α}
    (h : (overTokens tokens steps True).Simulates c c p q Q) (hmemo : Faithful tokens steps memo)
    (hrun : p c memo = (.ok (result, d), after)) :
    Faithful tokens steps after ∧ ∃ result' d', Q result result' d d' := by
  have hends := h memo [] ⟨hmemo, rfl⟩
  rw [hrun] at hends
  generalize q c [] = run at hends
  cases hends with
  | ok hresult hafter => exact ⟨hafter.1, _, _, hresult⟩
  | fails _ hfails => cases hfails

/-- The two places of a run over the same tokens are one. -/
theorem near_self {c c' : Cursor} (h : (overTokens tokens steps True).Near n k c c') :
    (overTokens tokens steps True).Near n k c c := by
  obtain ⟨⟨rfl, htrack⟩, hbound, hbegun⟩ := h
  exact ⟨⟨rfl, htrack⟩, hbound, hbegun⟩

/-- What holds on the way to a whole chain: tokens have been taken, the memory is faithful, and
reading the whole is reading the rest, for which there are steps enough. -/
structure OnTheWay (tokens : List Token) (steps n : Nat) (g : Grammar) (first : Cursor)
    (memo : BraceMemo) (read : Postfix) (place : Cursor) (after : BraceMemo) (k left : Nat) :
    Prop where
  begun : 1 ≤ k
  near : (overTokens tokens steps True).Near n k place place
  faithful : Faithful tokens steps after
  room : n ≤ left + k
  run : postfixed g first memo = read.rest g left place after

/-- A part of a chain is on the way to the whole. By induction on the links that have been
read. -/
theorem ReadsPostfix.onTheWay
    (hg : SimilarBraces (overTokens tokens steps True) first.rest.length g g')
    (hfirst : OnTrack tokens first) (hmemo : Faithful tokens steps memo)
    (h : ReadsPostfix g first memo read place after) :
    ∃ k left, OnTheWay tokens steps first.rest.length g first memo read place after k left := by
  induction h with
  | @alone expr place after hrun =>
      obtain ⟨hafter, _, _, -, hnear⟩ := (hg.primary (near_over_tokens hfirst)).of_ok hmemo hrun
      have hsteps := hg.lt_steps
      refine ⟨0 + 1, g.steps - 1, by omega, near_self hnear, hafter, by omega, ?_⟩
      show (primary g >>= postfixChain g g.steps) first memo = _
      rw [run_bind, hrun, Postfix.rest, Nat.sub_add_cancel (by omega)]
  | @link expr next before place between after _ hrun ih =>
      obtain ⟨k, left, hbegun, hnear, hbetween, hroom, hwhole⟩ := ih
      obtain ⟨hafter, found, d', rfl, hmore⟩ :=
        (hg.postfix_link expr hnear hbegun).of_ok hbetween hrun
      have hmore : (overTokens tokens steps True).Near first.rest.length (k + 1) place d' := hmore
      have hbound := hmore.bound
      obtain ⟨left, rfl⟩ := Nat.exists_eq_add_one.mpr (show 0 < left by omega)
      refine ⟨k + 1, left, by omega, near_self hmore, hafter, by omega, ?_⟩
      rw [hwhole, Postfix.rest, postfix_chain_succ, run_bind, hrun]
      rfl
  | @member object before between _ hdot hword ih =>
      obtain ⟨k, left, hbegun, hnear, hbetween, hroom, hwhole⟩ := ih
      have hone := hnear.advance (by rw [hdot]; decide)
      have htwo := hone.advance (by rcases hword with hword | hword <;> rw [hword] <;> decide)
      have hbound := htwo.bound
      obtain ⟨left, rfl⟩ := Nat.exists_eq_add_one.mpr (show 0 < left by omega)
      refine ⟨k + 2, left, by omega, htwo, hbetween, by omega, ?_⟩
      rw [hwhole, Postfix.rest, postfix_chain_succ,
        bind_congr_at (postfix_link_dot object between hdot hword), bind_assoc]
      rfl

/-- What continues a chain takes a token, so the chain does not end before it. -/
theorem Stops.not_continues (hg : SimilarBraces (overTokens tokens steps True) n g g')
    (hnear : (overTokens tokens steps True).Near n 1 place place)
    (hafter : Faithful tokens steps after)
    (hopens : place.peek.kind = .lparen ∨ place.peek.kind = .lbrack)
    (h : Stops g first memo read place after) : ¬ Continues g first memo read place after := by
  rintro ⟨left, hleft, hrun⟩
  rw [Stops, hrun] at h
  -- Counted from this place, as many tokens are taken as are missing of all that were left.
  have hhere : (overTokens tokens steps True).Near n (n - place.rest.length) place place :=
    ⟨hnear.place, by have := hnear.bound; omega, fun _ => hnear.begun (Nat.le_refl 1)⟩
  have hbound := hnear.bound
  have hlink : (overTokens tokens steps True).Simulates place place (read.openedLink g)
      (read.openedLink g')
      ((overTokens tokens steps True).After n (n - place.rest.length + 1)) := by
    refine .peek (.ite Iff.rfl ?_ ?_)
    · intro _
      exact .then_eq (hg.call_arguments hhere) fun _ _ _ hd => .pure ⟨rfl, hd.mono (by omega)⟩
    · intro _
      have hone := hhere.advance (by rcases hopens with hkind | hkind <;> rw [hkind] <;> decide)
      refine .advance (.then_eq (hg.parse .expression hone (by omega)) fun index d d' hd => ?_)
      exact .skip (expect hd (by decide)) fun e e' he => .pure ⟨rfl, he.mono (by omega)⟩
  have hroom : n < left + (n - place.rest.length + 1) := by omega
  have hchain := hlink.then_eq fun expr d d' hd =>
    hg.postfix_chain expr hd (by omega) hroom hg.lt_add'
  obtain ⟨-, _, _, -, hmoved⟩ := hchain.of_ok hafter h
  have := hmoved.bound
  omega

end Grammars

/-- The grammar with which a row of tokens is read, when so many levels are left. -/
abbrev Grammar.ofRow (tokens : List Token) (memoise : Bool) (depth : Nat) : Grammar :=
  within memoise (tokens.length + 1) depth

section Row

variable {tokens : List Token} {first place : Cursor} {memo after : BraceMemo} {read : Postfix}
  {memoise : Bool} {depth : Nat} (hfirst : OnTrack tokens first)
  (hmemo : Faithful tokens (tokens.length + 1) memo)
  (hread : ReadsPostfix (ofRow tokens memoise depth) first memo read place after)

include hfirst in
/-- With any number of levels, a row is read as without a memory and without a limit, unless there
are too few levels. -/
theorem similar_of_row (memoise : Bool) (depth : Nat) :
    SimilarBraces (overTokens tokens (tokens.length + 1) True) first.rest.length
      (ofRow tokens memoise depth) (ofRow tokens false first.rest.length) := by
  have hlength : first.rest.length < tokens.length + 1 := by
    rw [hfirst.rest_eq, List.length_drop]
    omega
  exact similar_braces_within (fun m hm => up_to (by omega)) hlength memoise (.inl trivial)
    (Nat.le_refl _)

include hfirst hmemo hread

/-- The place up to which part of a chain is read is on track. -/
theorem ReadsPostfix.on_track : OnTrack tokens place := by
  obtain ⟨_, _, hway⟩ := hread.onTheWay (similar_of_row hfirst memoise depth) hfirst hmemo
  exact hway.near.place.2

/-- A parenthesis or bracket after part of a chain continues the chain if it stands on the line of
the token before it. Otherwise the chain ends before it. -/
theorem continues_iff_same_line (hopens : place.peek.kind = .lparen ∨ place.peek.kind = .lbrack) :
    (Continues (ofRow tokens memoise depth) first memo read place after ↔
        place.onSameLine = true) ∧
      (¬ Continues (ofRow tokens memoise depth) first memo read place after →
        Stops (ofRow tokens memoise depth) first memo read place after) := by
  have hg := similar_of_row hfirst memoise depth
  obtain ⟨k, left, hbegun, hnear, hafter, hroom, hrun⟩ := hread.onTheWay hg hfirst hmemo
  have hbound := hnear.bound
  cases hline : place.onSameLine with
  | true =>
      obtain ⟨fewer, hfewer, hrest⟩ := Postfix.rest_opened hopens after hline
      have hcontinues : Continues (ofRow tokens memoise depth) first memo read place after :=
        ⟨fewer, by omega, hrun.trans hrest⟩
      exact ⟨iff_of_true hcontinues rfl, fun hends => absurd hcontinues hends⟩
  | false =>
      have hstops : Stops (ofRow tokens memoise depth) first memo read place after :=
        hrun.trans (Postfix.rest_ended hopens after hline)
      have hends := hstops.not_continues hg (hnear.mono hbegun) hafter hopens
      exact ⟨iff_of_false hends (by decide), fun _ => hstops⟩

end Row

/-- An opening parenthesis or bracket that follows the last token of a postfix expression continues
the chain, as a call or an index, if no line break of the source lies between the two tokens and
none within the token before it. Otherwise the chain ends there. -/
theorem continues_iff {source : String} {tokens : List Token} {first place : Cursor}
    {memo after : BraceMemo} {read : Postfix} {memoise : Bool} {depth : Nat}
    (htokens : tokenize source = .ok tokens) (hfirst : OnTrack tokens first)
    (hmemo : Faithful tokens (tokens.length + 1) memo)
    (hread : ReadsPostfix (ofRow tokens memoise depth) first memo read place after) {i : Nat}
    (hi : i + 1 < tokens.length) (hindex : place.index = i + 1)
    (hopens : tokens[i + 1].kind = .lparen ∨ tokens[i + 1].kind = .lbrack) :
    (Continues (ofRow tokens memoise depth) first memo read place after ↔
        '\n' ∉ gap source tokens[i] tokens[i + 1] ∧ '\n' ∉ tokens[i].text.toList) ∧
      (¬ Continues (ofRow tokens memoise depth) first memo read place after →
        Stops (ofRow tokens memoise depth) first memo read place after) := by
  have htrack := hread.on_track hfirst hmemo
  have hnext : place.peek = tokens[i + 1] := by
    simp only [htrack.peek_eq (hindex ▸ hi), hindex]
  obtain ⟨hcontinues, hstops⟩ := continues_iff_same_line hfirst hmemo hread (hnext ▸ hopens)
  refine ⟨?_, hstops⟩
  calc Continues (ofRow tokens memoise depth) first memo read place after
      ↔ place.onSameLine = true := hcontinues
    _ ↔ tokens[i + 1].line = tokens[i].line := by
        rw [onSameLine, htrack.previous_line hindex (by omega), hnext, Option.all_some, beq_iff_eq,
          eq_comm]
    _ ↔ '\n' ∉ tokens[i].text.toList ∧ '\n' ∉ gap source tokens[i] tokens[i + 1] :=
        (row_of_tokenize htokens).line_iff hi
    _ ↔ '\n' ∉ gap source tokens[i] tokens[i + 1] ∧ '\n' ∉ tokens[i].text.toList := and_comm

/-- After the name of a method and a comment, what stands in parentheses on the next line is not the
arguments of the method. -/
theorem continues_iff_after_comment :
    let source := "x.f # (\n(1)"
    let row : List Token :=
      [⟨.name, "x", 0, 1, 1⟩, ⟨.dot, ".", 1, 2, 1⟩, ⟨.name, "f", 2, 3, 1⟩,
       ⟨.lparen, "(", 8, 9, 2⟩, ⟨.int, "1", 9, 10, 2⟩, ⟨.rparen, ")", 10, 11, 2⟩,
       ⟨.eof, "", 11, 11, 2⟩]
    let g := ofRow row true 8
    let read : Postfix := .member (.name "x") "f"
    let place : Cursor := ⟨3, some 1, row.drop 3⟩
    tokenize source = .ok row ∧ ReadsPostfix g (Cursor.start row) [] read place [] ∧
      ¬ Continues g (Cursor.start row) [] read place [] ∧
      Stops g (Cursor.start row) [] read place [] := by
  intro source row g read place
  have hrow : tokenize source = .ok row := by decide +kernel
  have hobject : ReadsPostfix g (Cursor.start row) [] (.whole (.name "x"))
      ⟨1, some 1, row.drop 1⟩ [] := .alone rfl
  have hread : ReadsPostfix g (Cursor.start row) [] read place [] := hobject.member rfl (.inl rfl)
  have hgap : gap source row[2] row[3] = " # (\n".toList := by decide +kernel
  obtain ⟨hcontinues, hstops⟩ := continues_iff hrow (.start row) (.nil row _) hread
    (show 2 + 1 < 7 by decide) rfl (.inl rfl)
  have hends : ¬ Continues g (Cursor.start row) [] read place [] := by
    intro h
    have hunbroken := (hcontinues.mp h).1
    rw [hgap] at hunbroken
    exact hunbroken (by decide)
  exact ⟨hrow, hread, hends, hstops hends⟩

/-- A text with a line break in it is not indexed, though no line break lies between the text and
the bracket: the bracket starts a list of its own. -/
theorem chain_ends_after_break_in_text :
    let source := "\"a\nb\"[0]"
    let row : List Token :=
      [⟨.string, "a\nb", 0, 5, 1⟩, ⟨.lbrack, "[", 5, 6, 2⟩, ⟨.int, "0", 6, 7, 2⟩,
       ⟨.rbrack, "]", 7, 8, 2⟩, ⟨.eof, "", 8, 8, 2⟩]
    let g := ofRow row true 6
    let read : Postfix := .whole (.string "a\nb")
    let place : Cursor := ⟨1, some 1, row.drop 1⟩
    tokenize source = .ok row ∧ ReadsPostfix g (Cursor.start row) [] read place [] ∧
      place.peek.kind = .lbrack ∧ '\n' ∉ gap source row[0] row[1] ∧
      ¬ Continues g (Cursor.start row) [] read place [] ∧
      Program.ofTokens row = .ok [.string "a\nb", .list [.int 0]] := by
  intro source row g read place
  have hrow : tokenize source = .ok row := by decide +kernel
  have hread : ReadsPostfix g (Cursor.start row) [] read place [] := .alone rfl
  have hgap : gap source row[0] row[1] = [] := by decide +kernel
  have hcontinues := (continues_iff_same_line (.start row) (.nil row _) hread (.inr rfl)).1
  have hprogram : Program.ofTokens row = .ok [.string "a\nb", .list [.int 0]] := by cbv
  refine ⟨hrow, hread, rfl, ?_, ?_, hprogram⟩
  · rw [hgap]
    exact List.not_mem_nil
  · rw [hcontinues]
    decide

end Script
