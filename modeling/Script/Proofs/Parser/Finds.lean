import Script.Proofs.Expr.WellFormed
import Script.Proofs.Parser.Simulation

/-!
# What a parser finds

`Finds` says of a parser that it gives only good results, and stops only at places with sound tokens
behind them, if it is started at such a place. Braces that are read once and remembered are part of
it: what is remembered is as well-formed as what is read, so looking it up is no exception.
-/

namespace Script

/-- The tokens that follow a place have texts that their classes admit. -/
def Cursor.Sound (cursor : Cursor) : Prop :=
  ∀ t ∈ cursor.rest, t.Sound

namespace Cursor

variable {cursor : Cursor}

/-- The next token is sound. -/
theorem Sound.peek (h : cursor.Sound) : cursor.peek.Sound := by
  unfold Cursor.peek
  cases hrest : cursor.rest with
  | nil => exact ⟨nofun, nofun, nofun⟩
  | cons token rest => exact h token (hrest ▸ List.mem_cons_self)

/-- The place after the next token is sound. -/
theorem Sound.advance (h : cursor.Sound) : cursor.advance.Sound := by
  by_cases heof : cursor.peek.kind = .eof
  · rw [advance_at_end heof]
    exact h
  · rw [advance_eq heof]
    exact fun t ht => h t (List.mem_of_mem_tail ht)

end Cursor

namespace Parser

/-- The braces that are remembered are well-formed, and sound places follow them. -/
def Remembered (memo : BraceMemo) : Prop :=
  ∀ index expr after, (index, .ok (expr, after)) ∈ memo → expr.WellFormed ∧ after.Sound

variable {α β : Type}

/-- A run ends with a good result at a sound place, or it fails. -/
inductive Found (good : α → Prop) : Except ParseFailure (α × Cursor) × BraceMemo → Prop where
  | ok {result : α} {after : Cursor} {memo : BraceMemo} : good result → after.Sound →
      Remembered memo → Found good (.ok (result, after), memo)
  | failed {failure : ParseFailure} {memo : BraceMemo} : Remembered memo →
      Found good (.error failure, memo)

/-- From a place, whatever is remembered, a parser gives a good result. -/
def FindsAt (cursor : Cursor) (parser : Parser α) (good : α → Prop) : Prop :=
  ∀ memo, Remembered memo → Found good (parser cursor memo)

/-- From every sound place, a parser gives a good result if any. -/
def Finds (parser : Parser α) (good : α → Prop) : Prop :=
  ∀ cursor, cursor.Sound → FindsAt cursor parser good

section At

variable {cursor : Cursor} {good good' : α → Prop} {result : β → Prop} {parser : Parser α}
  {next : α → Parser β}

/-- Nothing is read. -/
theorem FindsAt.pure {a : α} (hcursor : cursor.Sound) (h : good a) :
    FindsAt cursor (Pure.pure a) good :=
  fun _ hmemo => .ok h hcursor hmemo

/-- One parser after another. -/
theorem FindsAt.bind (hparser : FindsAt cursor parser good)
    (hnext : ∀ a, good a → Finds (next a) result) : FindsAt cursor (parser >>= next) result := by
  intro memo hmemo
  rw [run_bind]
  have hfound := hparser memo hmemo
  generalize parser cursor memo = run at hfound ⊢
  cases hfound with
  | ok hgood hafter hmemo => exact hnext _ hgood _ hafter _ hmemo
  | failed hmemo => exact .failed hmemo

/-- Taking the next token and going on from behind it. -/
theorem FindsAt.advance {next : Token → Parser β}
    (h : FindsAt cursor.advance (next cursor.peek) result) :
    FindsAt cursor (Parser.advance >>= next) result :=
  h

/-- A test, at a place. -/
theorem FindsAt.ite {test : Prop} [Decidable test] {yes no : Parser α}
    (hyes : test → FindsAt cursor yes good) (hno : ¬ test → FindsAt cursor no good) :
    FindsAt cursor (if test then yes else no) good := by
  split
  · rename_i htest
    exact hyes htest
  · rename_i htest
    exact hno htest

/-- Weaker things are said of the result. -/
theorem Finds.mono (h : Finds parser good) (hgood : ∀ a, good a → good' a) :
    Finds parser good' := by
  intro cursor hcursor memo hmemo
  have hfound := h cursor hcursor memo hmemo
  generalize parser cursor memo = run at hfound ⊢
  cases hfound with
  | ok hresult hafter hmemo => exact .ok (hgood _ hresult) hafter hmemo
  | failed hmemo => exact .failed hmemo

end At

namespace Finds

variable {good : α → Prop} {result : β → Prop} {parser : Parser α} {next : α → Parser β}

/-- Nothing is read. -/
theorem pure {a : α} (h : good a) : Finds (Pure.pure a) good :=
  fun _ hcursor => .pure hcursor h

/-- One parser after another. -/
theorem bind (hparser : Finds parser good) (hnext : ∀ a, good a → Finds (next a) result) :
    Finds (parser >>= next) result :=
  fun cursor hcursor => (hparser cursor hcursor).bind hnext

/-- One parser after another whose result is dropped. -/
theorem skip {next : Parser β} (hparser : Finds parser good) (hnext : Finds next result) :
    Finds (parser >>= fun _ => next) result :=
  bind hparser fun _ _ => hnext

/-- A token is refused. -/
theorem fail (token : Token) (detail : String) (expected : List String) :
    Finds (failAt token detail expected) good :=
  fun _ _ _ hmemo => .failed hmemo

/-- A token is refused, whatever would have followed. -/
theorem fail_then (token : Token) (detail : String) (expected : List String) :
    Finds (failAt token detail expected >>= next) result :=
  fail (α := β) token detail expected

/-- The source is nested too deeply. -/
theorem too_deep : Finds (throw .tooDeep) good :=
  fun _ _ _ hmemo => .failed hmemo

/-- A test. -/
theorem ite {test : Prop} [Decidable test] {yes no : Parser α} (hyes : test → Finds yes good)
    (hno : ¬ test → Finds no good) : Finds (if test then yes else no) good :=
  fun cursor hcursor => .ite (fun htest => hyes htest cursor hcursor)
    fun htest => hno htest cursor hcursor

/-- Looking at the next token, with the place kept in view. -/
theorem peek_at {next : Token → Parser β}
    (h : ∀ cursor, cursor.Sound → FindsAt cursor (next cursor.peek) result) :
    Finds (Parser.peek >>= next) result :=
  h

/-- Looking at the next token. -/
theorem peek {next : Token → Parser β} (h : ∀ token, token.Sound → Finds (next token) result) :
    Finds (Parser.peek >>= next) result :=
  peek_at fun cursor hcursor => h cursor.peek hcursor.peek cursor hcursor

/-- Asking for the place. -/
theorem get {next : Cursor → Parser β} (h : ∀ cursor, cursor.Sound → Finds (next cursor) result) :
    Finds (MonadState.get >>= next) result :=
  fun cursor hcursor => h cursor hcursor cursor hcursor

/-- Going on from another place. -/
theorem set {cursor : Cursor} {next : PUnit → Parser β} (hcursor : cursor.Sound)
    (h : Finds (next ⟨⟩) result) : Finds (MonadStateOf.set cursor >>= next) result :=
  fun _ _ => h cursor hcursor

/-- Taking the next token. -/
theorem advance {next : Token → Parser β} (h : ∀ token, token.Sound → Finds (next token) result) :
    Finds (Parser.advance >>= next) result :=
  fun cursor hcursor => .advance (h cursor.peek hcursor.peek cursor.advance hcursor.advance)

/-! ## The parts that all rules are made of -/

/-- A token that passes a test. -/
theorem take_if (test : Token → Bool) (expected : List String) :
    Finds (Parser.peek >>= fun t => if test t then Parser.advance else unexpected t expected)
      fun t => test t = true ∧ t.Sound := by
  refine peek_at fun cursor hcursor => .ite (fun htest _ hmemo => ?_) fun _ => ?_
  · exact .ok ⟨htest, hcursor.peek⟩ hcursor.advance hmemo
  · exact fail _ _ _ cursor hcursor

/-- A token of a class. -/
theorem expect (kind : TokenKind) :
    Finds (Parser.expect kind) fun t => t.kind = kind ∧ t.Sound := by
  have htake := take_if (fun t => decide (t.kind = kind)) [kind.label]
  simpa only [Parser.expect, decide_eq_true_eq] using htake

/-- An operator. -/
theorem expect_op (symbol : String) :
    Finds (expectOp symbol) fun t => t.isOp symbol = true ∧ t.Sound :=
  take_if (·.isOp symbol) _

/-- A keyword. -/
theorem expect_keyword (word : String) :
    Finds (expectKeyword word) fun t => t.isKeyword word = true ∧ t.Sound :=
  take_if (·.isKeyword word) _

/-- A name is a name. -/
theorem expect_name : Finds expectName Token.IsName :=
  .bind (expect .name) fun _ htoken => .pure (htoken.2.name htoken.1)

/-- Going on after a question, whatever the answer. -/
theorem branch {parser : Parser Bool} {yes no : Parser α} {good : α → Prop}
    (hparser : Finds parser fun _ => True) (hyes : Finds yes good) (hno : Finds no good) :
    Finds (parser >>= fun answer => if answer then yes else no) good :=
  bind hparser fun _ _ => .ite (fun _ => hyes) fun _ => hno

/-- Whether a token of a class is next. -/
theorem accept (kind : TokenKind) : Finds (Parser.accept kind) fun _ => True :=
  .peek fun _ _ => .ite (fun _ => .advance fun _ _ => .pure trivial) fun _ => .pure trivial

/-- Whether a keyword is next. -/
theorem accept_keyword (word : String) : Finds (acceptKeyword word) fun _ => True :=
  .peek fun _ _ => .ite (fun _ => .advance fun _ _ => .pure trivial) fun _ => .pure trivial

/-- Trying a parser. -/
theorem attempt (h : Finds parser good) :
    Finds (Parser.attempt parser) fun found => ∀ a ∈ found, good a := by
  intro cursor hcursor memo hmemo
  unfold Parser.attempt
  have hfound := h cursor hcursor memo hmemo
  generalize parser cursor memo = run at hfound ⊢
  cases hfound with
  | ok hgood hafter hmemo =>
      refine .ok ?_ hafter hmemo
      rintro _ ⟨rfl⟩
      exact hgood
  -- An error is no result, and the parser goes on from where it was tried.
  | @failed failure memo hmemo =>
      cases failure with
      | wrong error => exact .ok nofun hcursor hmemo
      | tooDeep => exact .failed hmemo

/-- Skipping tokens. -/
theorem skip_kinds (kinds : List TokenKind) (steps : Nat) :
    Finds (skipKinds kinds steps) fun _ => True := by
  induction steps with
  | zero => exact .pure trivial
  | succ steps ih =>
      exact .peek fun _ _ => .ite (fun _ => .advance fun _ _ => ih) fun _ => .pure trivial

section Items

variable {item : Parser α} (hitem : Finds item good) (steps : Nat) {done : List α}
  (hdone : ∀ a ∈ done, good a)

include hdone

/-- The items in the order in which they have been read. -/
theorem reverse : Finds (Pure.pure done.reverse) fun items => ∀ a ∈ items, good a :=
  .pure fun a ha => hdone a (List.mem_reverse.mp ha)

include hitem

/-- Items up to a closing token. -/
theorem items_until (closing : List TokenKind) {separate : Parser Unit}
    (hseparate : Finds separate fun _ => True) :
    Finds (itemsUntil closing separate item steps done) fun items => ∀ a ∈ items, good a := by
  induction steps generalizing done with
  | zero => exact .too_deep
  | succ steps ih =>
      refine .peek fun _ _ => .ite (fun _ => reverse hdone) fun _ => ?_
      refine .bind hitem fun next hnext => .skip hseparate ?_
      exact ih (List.forall_mem_cons.mpr ⟨hnext, hdone⟩)

/-- Items with commas between them. -/
theorem comma_items (closing : TokenKind) :
    Finds (commaItems closing item steps done) fun items => ∀ a ∈ items, good a := by
  induction steps generalizing done with
  | zero => exact .too_deep
  | succ steps ih =>
      refine .peek fun _ _ => .ite (fun _ => reverse hdone) fun _ => ?_
      refine .bind hitem fun next hnext => ?_
      have hmore := List.forall_mem_cons.mpr ⟨hnext, hdone⟩
      exact .branch (.accept .comma) (ih hmore) (reverse hmore)

/-- Items each preceded by a comma. -/
theorem comma_tail (closing : Option TokenKind) :
    Finds (commaTail closing item steps done) fun items => ∀ a ∈ items, good a := by
  induction steps generalizing done with
  | zero => exact .too_deep
  | succ steps ih =>
      refine .branch (.accept .comma) ?_ (reverse hdone)
      refine .peek fun _ _ => .ite (fun _ => reverse hdone) fun _ => ?_
      exact .bind hitem fun next hnext => ih (List.forall_mem_cons.mpr ⟨hnext, hdone⟩)

end Items

/-- Operands joined by operators. -/
theorem left_chain {operator : Parser (Option BinaryOperator)} {operand : Parser Expr}
    (hoperator : Finds operator fun _ => True) (hoperand : Finds operand Expr.WellFormed)
    (steps : Nat) {left : Expr} (hleft : left.WellFormed) :
    Finds (leftChain operator operand steps left) Expr.WellFormed := by
  induction steps generalizing left with
  | zero => exact .too_deep
  | succ steps ih =>
      refine .bind hoperator fun found _ => ?_
      cases found with
      | none => exact .pure hleft
      | some operator => exact .bind hoperand fun right hright => ih (.binary hleft hright)

end Finds

end Parser

end Script
