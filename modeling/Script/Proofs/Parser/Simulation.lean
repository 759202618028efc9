import Script.Expr.Parser

/-!
# Parsers that do the same

Two parsers are compared on two rows of tokens. A `Simulation` says which tokens and which places
correspond, and what is known of the braces that the two parsers remember. `Simulates` says that
from corresponding places both parsers succeed with corresponding results, or both refuse
corresponding tokens.

Two things may be left open. Where the first row ends, the second may go on with a semicolon; then
nothing is said of the second parser if the first refuses the end of its row. And the first parser
may be short of levels; then nothing is said of the second if the first descends too deeply.

The bound `n` of `Near` is the number of tokens that were left when a rule was entered, and `k` is
the number of tokens known to have been taken since. A rule may descend to a nonterminal only
after it has taken a token, so the number of levels below need not exceed `n`.
-/

namespace Script

namespace Simulation

/-- Two tokens correspond, or the first row ends where the second goes on with a semicolon. -/
inductive Meet (token : Token → Token → Prop) (goesOn : Prop) (t t' : Token) : Prop where
  | same : token t t' → Meet token goesOn t t'
  | ended : goesOn → t.kind = .eof → t'.kind = .semi → Meet token goesOn t t'

/-- The tokens of two rows correspond up to the end of the first. -/
inductive Rows (token : Token → Token → Prop) (goesOn : Prop) : List Token → List Token → Prop where
  | nil : token default default → Rows token goesOn [] []
  | cons {t t' : Token} {rest rest' : List Token} : token t t' → Rows token goesOn rest rest' →
      Rows token goesOn (t :: rest) (t' :: rest')
  | stop {t t' : Token} (rest rest' : List Token) : t.kind = .eof → Meet token goesOn t t' →
      Rows token goesOn (t :: rest) (t' :: rest')

end Simulation

/-- Which tokens and places of two rows correspond, and what the remembered braces satisfy. Tokens
that correspond have the same class and text. Lines matter in two spots only: before an opening
parenthesis or bracket, and after `return`. Of the braces that the first parser remembers,
something is also known if the second parser has gone another way. -/
structure Simulation where
  token : Token → Token → Prop
  place : Cursor → Cursor → Prop
  memo : BraceMemo → BraceMemo → Prop
  kept : BraceMemo → Prop
  /-- The second row goes on with a semicolon where the first ends. -/
  goesOn : Prop
  /-- The first parser may be short of levels. -/
  shallow : Prop
  kept_of_memo {M M' : BraceMemo} : memo M M' → kept M
  kind_eq {t t' : Token} : token t t' → t.kind = t'.kind
  text_eq {t t' : Token} : token t t' → t.text = t'.text
  rest {c c' : Cursor} : place c c' → Simulation.Rows token goesOn c.rest c'.rest
  advance {c c' : Cursor} : place c c' → c.peek.kind ≠ .eof → place c.advance c'.advance
  same_line {c c' : Cursor} : place c c' → c.previousLine.isSome →
    c.peek.kind = .lparen ∨ c.peek.kind = .lbrack → c.onSameLine = c'.onSameLine
  return_line {c c' : Cursor} : place c c' → c.peek.isKeyword "return" →
    c.advance.peek.kind ≠ .eof →
    (c.advance.peek.line = c.peek.line ↔ c'.advance.peek.line = c'.peek.line)

namespace Parser

/-- One parser after another: the second starts where the first has stopped, with the braces that
it has remembered. -/
theorem run_bind {α β : Type} (parser : Parser α) (next : α → Parser β) (cursor : Cursor)
    (memo : BraceMemo) :
    (parser >>= next) cursor memo =
      match parser cursor memo with
      | (.ok (result, after), memo) => next result after memo
      | (.error failure, memo) => (.error failure, memo) := by
  show (ExceptT.bind (parser cursor) fun pair => next pair.1 pair.2) memo = _
  simp only [ExceptT.bind, ExceptT.mk, bind, StateT.bind, ExceptT.bindCont]
  rcases parser cursor memo with ⟨result, after⟩
  cases result with
  | ok pair => rfl
  | error failure => rfl

/-- Skipping tokens never fails, and nothing is remembered. -/
theorem skip_kinds_run (kinds : List TokenKind) (steps : Nat) (cursor : Cursor) (memo : BraceMemo) :
    ∃ after, skipKinds kinds steps cursor memo = (.ok ((), after), memo) := by
  induction steps generalizing cursor with
  | zero => exact ⟨cursor, rfl⟩
  | succ steps ih =>
      show ∃ after, (if kinds.contains cursor.peek.kind then _ else _ : Parser Unit) cursor memo = _
      split
      · exact ih cursor.advance
      · exact ⟨cursor, rfl⟩

end Parser

namespace Cursor

variable {cursor : Cursor}

/-- At a token that is not the end of the source, advancing takes that token. -/
theorem advance_eq (h : cursor.peek.kind ≠ .eof) :
    cursor.advance = ⟨cursor.index + 1, some cursor.peek.line, cursor.rest.tail⟩ := by
  obtain ⟨index, line, _ | ⟨token, rest⟩⟩ := cursor
  · exact absurd rfl h
  · simp only [peek, List.headD_cons] at h
    simp only [advance, h, if_false, peek, List.headD_cons, List.tail_cons]

/-- The end of the source is never passed. -/
theorem advance_at_end (h : cursor.peek.kind = .eof) : cursor.advance = cursor := by
  obtain ⟨index, line, _ | ⟨token, rest⟩⟩ := cursor
  · rfl
  · simp only [peek, List.headD_cons] at h
    simp only [advance, h, if_true]

/-- Where a token is taken, one token fewer is left. -/
theorem length_advance (h : cursor.peek.kind ≠ .eof) :
    cursor.advance.rest.length + 1 = cursor.rest.length := by
  rw [advance_eq h]
  obtain ⟨index, line, _ | ⟨token, rest⟩⟩ := cursor
  · exact absurd rfl h
  · rfl

/-- After a token has been taken, the one after it is next. -/
theorem peek_advance (h : cursor.peek.kind ≠ .eof) : cursor.advance.peek = cursor.peekSecond := by
  rw [advance_eq h]
  rfl

end Cursor

namespace Simulation

open Script.Parser

variable (S : Simulation) {α β : Type}

/-- The next tokens of two corresponding places. -/
def Meets (t t' : Token) : Prop :=
  Meet S.token S.goesOn t t'

/-- The places correspond, and of `n` tokens at least `k` have been taken. -/
structure Near (n k : Nat) (c c' : Cursor) : Prop where
  place : S.place c c'
  bound : c.rest.length + k ≤ n
  begun : 1 ≤ k → c.previousLine.isSome

/-- The first parser has refused the end of its row where the second row goes on, or it has
descended too deeply. -/
inductive Fails : Except ParseFailure (α × Cursor) × BraceMemo → Prop where
  | starved {error : ParseError} {M : BraceMemo} : S.goesOn → error.found = "EOF" → S.kept M →
      Fails (.error (.wrong error), M)
  | tooDeep {M : BraceMemo} : S.shallow → Fails (.error .tooDeep, M)

/-- Two runs end with corresponding results or refuse corresponding tokens, or else the first
fails as it may. -/
inductive Ends (Q : α → α → Cursor → Cursor → Prop) :
    Except ParseFailure (α × Cursor) × BraceMemo →
      Except ParseFailure (α × Cursor) × BraceMemo → Prop where
  | ok {a a' : α} {c c' : Cursor} {M M' : BraceMemo} : Q a a' c c' → S.memo M M' →
      Ends Q (.ok (a, c), M) (.ok (a', c'), M')
  | wrong {t t' : Token} {M M' : BraceMemo} (detail : String) (expected : List String) :
      S.token t t' → S.memo M M' →
      Ends Q (.error (.wrong ⟨detail, t.pos, t.stop, expected, t.describe⟩), M)
        (.error (.wrong ⟨detail, t'.pos, t'.stop, expected, t'.describe⟩), M')
  | fails {run : Except ParseFailure (α × Cursor) × BraceMemo}
      (run' : Except ParseFailure (α × Cursor) × BraceMemo) : S.Fails run → Ends Q run run'

/-- From two places, with what they remember, two parsers end alike. -/
def Simulates (c c' : Cursor) (p q : Parser α) (Q : α → α → Cursor → Cursor → Prop) : Prop :=
  ∀ M M', S.memo M M' → S.Ends Q (p c M) (q c' M')

/-- Equal results, after at least `k` of `n` tokens. -/
def After (n k : Nat) : α → α → Cursor → Cursor → Prop :=
  fun a a' c c' => a = a' ∧ S.Near n k c c'

/-- Corresponding tokens as results, after at least `k` of `n` tokens. -/
def TokenAfter (n k : Nat) : Token → Token → Cursor → Cursor → Prop :=
  fun t t' c c' => S.token t t' ∧ S.Near n k c c'

/-- Equal answers, the first of which tells that one more token has been taken. -/
def AfterIf (taken : α → Bool) (n k : Nat) : α → α → Cursor → Cursor → Prop :=
  fun a a' c c' => a = a' ∧ S.Near n (if taken a then k + 1 else k) c c'

/-- The first parser is at the end of its row, where the second row goes on. -/
def Dry (c : Cursor) : Prop :=
  S.goesOn ∧ c.peek.kind = .eof

/-- The places correspond, unless the first row is at its end and the second parser has gone on. -/
def Paused (n k : Nat) : Unit → Unit → Cursor → Cursor → Prop :=
  fun _ _ c c' => S.Near n k c c' ∨ S.Dry c

variable {S} {n k : Nat} {c c' : Cursor}

/-- A weaker relation between the results of two runs. -/
theorem Ends.mono {Q Q' : α → α → Cursor → Cursor → Prop}
    {run run' : Except ParseFailure (α × Cursor) × BraceMemo} (h : S.Ends Q run run')
    (hQ : ∀ a a' d d', Q a a' d d' → Q' a a' d d') : S.Ends Q' run run' := by
  cases h with
  | ok hresult hmemo => exact .ok (hQ _ _ _ _ hresult) hmemo
  | wrong detail expected htoken hmemo => exact .wrong detail expected htoken hmemo
  | fails run' hfails => exact .fails run' hfails

/-- Nothing is read after a failure. -/
theorem Fails.bind {run : Except ParseFailure (α × Cursor) × BraceMemo} (next : α → Parser β) :
    S.Fails run → S.Fails (match run with
      | (.ok (result, after), memo) => next result after memo
      | (.error failure, memo) => (.error failure, memo)) := by
  intro h
  cases h with
  | starved hgoesOn hfound hkept => exact .starved hgoesOn hfound hkept
  | tooDeep hshallow => exact .tooDeep hshallow

/-- What is read after two runs that end alike. -/
theorem Ends.bind {Q : α → α → Cursor → Cursor → Prop} {R : β → β → Cursor → Cursor → Prop}
    {run run' : Except ParseFailure (α × Cursor) × BraceMemo} {f f' : α → Parser β}
    (hf : ∀ a a' d d', Q a a' d d' → S.Simulates d d' (f a) (f' a') R) :
    S.Ends Q run run' → S.Ends R
      (match run with
        | (.ok (result, after), memo) => f result after memo
        | (.error failure, memo) => (.error failure, memo))
      (match run' with
        | (.ok (result, after), memo) => f' result after memo
        | (.error failure, memo) => (.error failure, memo)) := by
  intro h
  cases h with
  | ok hresult hmemo => exact hf _ _ _ _ hresult _ _ hmemo
  | wrong detail expected htoken hmemo => exact .wrong detail expected htoken hmemo
  | fails run' hfails => exact .fails _ (.bind f hfails)

/-- Fewer tokens have been taken as well. -/
theorem Near.mono {j : Nat} (h : S.Near n k c c') (hle : j ≤ k) : S.Near n j c c' :=
  ⟨h.place, by have := h.bound; omega, fun hj => h.begun (by omega)⟩

/-- A row corresponds to itself if all tokens do. -/
theorem Rows.refl {token : Token → Token → Prop} {goesOn : Prop} (h : ∀ t, token t t) :
    ∀ row : List Token, Rows token goesOn row row
  | [] => .nil (h _)
  | t :: row => .cons (h t) (Rows.refl h row)

/-- A run that may not want levels does not end for want of them. -/
theorem Ends.ne_too_deep {Q : α → α → Cursor → Cursor → Prop}
    {run run' : Except ParseFailure (α × Cursor) × BraceMemo} (h : S.Ends Q run run')
    (hshallow : ¬ S.shallow) : run.1 ≠ .error .tooDeep := by
  cases h with
  | ok hresult hmemo => simp
  | wrong detail expected htoken hmemo => simp
  | fails run' hfails =>
      cases hfails with
      | starved hgoesOn hfound hkept => simp
      | tooDeep hallowed => exact absurd hallowed hshallow

/-- The first tokens of two rows. -/
theorem Rows.head {rest rest' : List Token} (h : Rows S.token S.goesOn rest rest') :
    S.Meets (rest.headD default) (rest'.headD default) := by
  cases h with
  | nil hdefault => exact .same hdefault
  | cons htoken _ => exact .same htoken
  | stop _ _ _ hmeet => exact hmeet

/-- The tokens after the first, which is not the end of the source. -/
theorem Rows.tail {rest rest' : List Token} (h : Rows S.token S.goesOn rest rest')
    (hkind : (rest.headD default).kind ≠ .eof) : Rows S.token S.goesOn rest.tail rest'.tail := by
  cases h with
  | nil hdefault => exact .nil hdefault
  | cons _ hrest => exact hrest
  | stop _ _ heof _ => exact absurd heof hkind

/-- Corresponding places have corresponding next tokens. -/
theorem Near.peek (h : S.Near n k c c') : S.Meets c.peek c'.peek :=
  (S.rest h.place).head

/-- The tokens after the next correspond. -/
theorem Near.rest_tail (h : S.Near n k c c') (hkind : c.peek.kind ≠ .eof) :
    Rows S.token S.goesOn c.rest.tail c'.rest.tail :=
  (S.rest h.place).tail hkind

/-- Corresponding places have corresponding tokens after the next. -/
theorem Near.peek_second (h : S.Near n k c c') (hkind : c.peek.kind ≠ .eof) :
    S.Meets c.peekSecond c'.peekSecond :=
  (h.rest_tail hkind).head

/-- Taking a token that is not the end of the source. -/
theorem Near.advance (h : S.Near n k c c') (hkind : c.peek.kind ≠ .eof) :
    S.Near n (k + 1) c.advance c'.advance := by
  refine ⟨S.advance h.place hkind, ?_, fun _ => ?_⟩
  · have hbound := h.bound
    have hlength := Cursor.length_advance hkind
    omega
  · rw [Cursor.advance_eq hkind]
    rfl

section Meets

variable {t t' : Token}

/-- Tokens correspond unless the first row is at its end. -/
theorem Meets.token (h : S.Meets t t') (hkind : t.kind ≠ .eof) : S.token t t' := by
  cases h with
  | same htoken => exact htoken
  | ended _ heof _ => exact absurd heof hkind

/-- Next tokens are of the same class, if they do not end or separate anything. -/
theorem Meets.kind_iff (h : S.Meets t t') {kind : TokenKind} (hkind : kind ≠ .eof ∧ kind ≠ .semi) :
    t.kind = kind ↔ t'.kind = kind := by
  cases h with
  | same htoken => rw [S.kind_eq htoken]
  | ended _ heof hsemi =>
      rw [heof, hsemi]
      exact ⟨fun heq => absurd heq.symm hkind.1, fun heq => absurd heq.symm hkind.2⟩

/-- Next tokens are the same operators. -/
theorem is_op_eq (h : S.Meets t t') (symbol : String) : t.isOp symbol = t'.isOp symbol := by
  cases h with
  | same htoken => simp only [Token.isOp, S.kind_eq htoken, S.text_eq htoken]
  | ended _ heof hsemi => simp [Token.isOp, heof, hsemi]

/-- Next tokens are the same keywords. -/
theorem is_keyword_eq (h : S.Meets t t') (word : String) :
    t.isKeyword word = t'.isKeyword word := by
  cases h with
  | same htoken => simp only [Token.isKeyword, S.kind_eq htoken, S.text_eq htoken]
  | ended _ heof hsemi => simp [Token.isKeyword, heof, hsemi]

/-- Next tokens are both words or neither is. -/
theorem Meets.no_word_eq (h : S.Meets t t') :
    (decide (t.kind ≠ .name) && decide (t.kind ≠ .keyword)) =
      (decide (t'.kind ≠ .name) && decide (t'.kind ≠ .keyword)) := by
  cases h with
  | same htoken => rw [S.kind_eq htoken]
  | ended _ heof hsemi => simp [heof, hsemi]

/-- Next tokens are both keywords of statements or neither is. -/
theorem Meets.statement_keyword_eq (h : S.Meets t t') :
    (decide (t.kind = .keyword) && Grammar.statementKeywords.contains t.text) =
      (decide (t'.kind = .keyword) && Grammar.statementKeywords.contains t'.text) := by
  cases h with
  | same htoken => rw [S.kind_eq htoken, S.text_eq htoken]
  | ended _ heof hsemi => simp [heof, hsemi]

/-- An operator is not the end of the source. -/
theorem kind_ne_eof_of_is_op {symbol : String} (h : t.isOp symbol = true) : t.kind ≠ .eof := by
  intro heof
  simp [Token.isOp, heof] at h

/-- A keyword is not the end of the source. -/
theorem kind_ne_eof_of_is_keyword {word : String} (h : t.isKeyword word = true) :
    t.kind ≠ .eof := by
  intro heof
  simp [Token.isKeyword, heof] at h

end Meets

/-- An opening parenthesis or bracket stands on the line of the token before it on both sides or on
neither. -/
theorem Near.opens_here (h : S.Near n k c c') (hk : 1 ≤ k) {kind : TokenKind}
    (hkind : kind = .lparen ∨ kind = .lbrack) :
    (decide (c.peek.kind = kind) && c.onSameLine) =
      (decide (c'.peek.kind = kind) && c'.onSameLine) := by
  have hiff : c.peek.kind = kind ↔ c'.peek.kind = kind := by
    refine h.peek.kind_iff ?_
    rcases hkind with rfl | rfl <;> decide
  by_cases heq : c.peek.kind = kind
  · rw [S.same_line h.place (h.begun hk) (heq ▸ hkind), heq, hiff.mp heq]
  · simp only [heq, mt hiff.mpr heq, decide_false, Bool.false_and]

namespace Simulates

variable {p q : Parser α} {f f' : α → Parser β} {Q : α → α → Cursor → Cursor → Prop}
  {R : β → β → Cursor → Cursor → Prop}

/-- A weaker relation between the results. -/
theorem mono {Q' : α → α → Cursor → Cursor → Prop} (h : S.Simulates c c' p q Q)
    (hQ : ∀ a a' d d', Q a a' d d' → Q' a a' d d') : S.Simulates c c' p q Q' :=
  fun M M' hmemo => (h M M' hmemo).mono hQ

/-- Nothing is read. -/
theorem pure {a a' : α} (h : Q a a' c c') :
    S.Simulates c c' (Pure.pure a) (Pure.pure a') Q :=
  fun _ _ hmemo => .ok h hmemo

/-- One parser after another. -/
theorem bind (hp : S.Simulates c c' p q Q)
    (hf : ∀ a a' d d', Q a a' d d' → S.Simulates d d' (f a) (f' a') R) :
    S.Simulates c c' (p >>= f) (q >>= f') R := by
  intro M M' hmemo
  rw [run_bind, run_bind]
  exact .bind hf (hp M M' hmemo)

/-- The same result on both sides, then more. -/
theorem then_eq (hp : S.Simulates c c' p q (S.After n k))
    (hf : ∀ a d d', S.Near n k d d' → S.Simulates d d' (f a) (f' a) R) :
    S.Simulates c c' (p >>= f) (q >>= f') R :=
  bind hp fun a _ d d' h => h.1 ▸ hf a d d' h.2

/-- A token is taken and dropped, then more. -/
theorem skip {p q : Parser Token} {next next' : Parser β}
    (hp : S.Simulates c c' p q (S.TokenAfter n k))
    (hnext : ∀ d d', S.Near n k d d' → S.Simulates d d' next next' R) :
    S.Simulates c c' (p >>= fun _ => next) (q >>= fun _ => next') R :=
  bind hp fun _ _ d d' h => hnext d d' h.2

/-- At least as many tokens as are asked for have been taken. -/
theorem weaken {j : Nat} (h : S.Simulates c c' p q (S.After n k)) (hle : j ≤ k) :
    S.Simulates c c' p q (S.After n j) :=
  h.mono fun _ _ _ _ hafter => ⟨hafter.1, hafter.2.mono hle⟩

/-- Looking at the next token takes nothing. -/
theorem peek {f f' : Token → Parser β} (h : S.Simulates c c' (f c.peek) (f' c'.peek) R) :
    S.Simulates c c' (Parser.peek >>= f) (Parser.peek >>= f') R :=
  h

/-- Asking for the place takes nothing. -/
theorem get {f f' : Cursor → Parser β} (h : S.Simulates c c' (f c) (f' c') R) :
    S.Simulates c c' (MonadState.get >>= f) (MonadState.get >>= f') R :=
  h

/-- Going on from other places. -/
theorem set {d d' : Cursor} {f f' : PUnit → Parser β} (h : S.Simulates d d' (f ⟨⟩) (f' ⟨⟩) R) :
    S.Simulates c c' (MonadStateOf.set d >>= f) (MonadStateOf.set d' >>= f') R :=
  h

/-- Taking the next token and going on from behind it. -/
theorem advance {f f' : Token → Parser β}
    (h : S.Simulates c.advance c'.advance (f c.peek) (f' c'.peek) R) :
    S.Simulates c c' (Parser.advance >>= f) (Parser.advance >>= f') R :=
  h

/-- Both refuse the same token, or the first refuses the end of its row. -/
theorem fail {t t' : Token} (h : S.Meets t t') (detail : String) (expected : List String) :
    S.Simulates c c' (failAt t detail expected) (failAt t' detail expected) Q := by
  intro M M' hmemo
  cases h with
  | same htoken => exact .wrong detail expected htoken hmemo
  | ended hgoesOn heof _ =>
      exact .fails _ (.starved hgoesOn (if_pos heof) (S.kept_of_memo hmemo))

/-- Both refuse the same token, whatever would have followed. -/
theorem fail_then {t t' : Token} (h : S.Meets t t') (detail : String) (expected : List String) :
    S.Simulates c c' (failAt t detail expected >>= f) (failAt t' detail expected >>= f') R :=
  fail (α := β) h detail expected

/-- The first parser descends too deeply, and may. -/
theorem too_deep (h : S.shallow) (q : Parser α) :
    S.Simulates c c' (throw .tooDeep) q Q :=
  fun _ _ _ => .fails _ (.tooDeep h)

/-- A test with the same answer on both sides. -/
theorem ite {a b : Prop} [Decidable a] [Decidable b] {p₁ p₂ q₁ q₂ : Parser α} (hiff : a ↔ b)
    (hyes : a → S.Simulates c c' p₁ q₁ Q) (hno : ¬ a → S.Simulates c c' p₂ q₂ Q) :
    S.Simulates c c' (if a then p₁ else p₂) (if b then q₁ else q₂) Q := by
  by_cases ha : a
  · rw [if_pos ha, if_pos (hiff.1 ha)]
    exact hyes ha
  · rw [if_neg ha, if_neg (fun hb => ha (hiff.2 hb))]
    exact hno ha

end Simulates

/-! ## The parts that all rules are made of -/

section Parts

variable {Q : α → α → Cursor → Cursor → Prop}

/-- Taking a token that passes a test, or refusing it. -/
theorem take_here (test : Token → Bool) (expected : List String) (h : S.Near n k c c')
    (hsame : test c.peek = test c'.peek) :
    S.Simulates c c'
      (Parser.peek >>= fun t => if test t then Parser.advance else unexpected t expected)
      (Parser.peek >>= fun t => if test t then Parser.advance else unexpected t expected)
      fun t t' d d' => test t = true ∧ (t, d) = (c.peek, c.advance) ∧
        (t', d') = (c'.peek, c'.advance) := by
  refine .peek (.ite (by rw [hsame]) ?_ ?_)
  · intro htest M M' hmemo
    exact .ok ⟨htest, rfl, rfl⟩ hmemo
  · intro _
    exact .fail h.peek _ _

/-- The end of the source passes no test for a token to take. -/
theorem take_if (test : Token → Bool) (expected : List String) (h : S.Near n k c c')
    (hsame : test c.peek = test c'.peek) (heof : test c.peek = true → c.peek.kind ≠ .eof) :
    S.Simulates c c'
      (Parser.peek >>= fun t => if test t then Parser.advance else unexpected t expected)
      (Parser.peek >>= fun t => if test t then Parser.advance else unexpected t expected)
      (S.TokenAfter n (k + 1)) := by
  refine (take_here test expected h hsame).mono ?_
  rintro t t' d d' ⟨htest, heq, heq'⟩
  cases heq
  cases heq'
  exact ⟨h.peek.token (heof htest), h.advance (heof htest)⟩

/-- Taking a token of a class. -/
theorem expect {kind : TokenKind} (h : S.Near n k c c') (hkind : kind ≠ .eof ∧ kind ≠ .semi) :
    S.Simulates c c' (Parser.expect kind) (Parser.expect kind) (S.TokenAfter n (k + 1)) := by
  have htake := take_if (fun t => decide (t.kind = kind)) [kind.label] h
    (decide_eq_decide.mpr (h.peek.kind_iff hkind))
    (fun htest => of_decide_eq_true htest ▸ hkind.1)
  simpa only [Parser.expect, decide_eq_true_eq] using htake

/-- Taking an operator. -/
theorem expect_op {symbol : String} (h : S.Near n k c c') :
    S.Simulates c c' (expectOp symbol) (expectOp symbol) (S.TokenAfter n (k + 1)) :=
  take_if (·.isOp symbol) _ h (is_op_eq h.peek symbol) kind_ne_eof_of_is_op

/-- Taking a keyword. -/
theorem expect_keyword {word : String} (h : S.Near n k c c') :
    S.Simulates c c' (expectKeyword word) (expectKeyword word) (S.TokenAfter n (k + 1)) :=
  take_if (·.isKeyword word) _ h (is_keyword_eq h.peek word) kind_ne_eof_of_is_keyword

/-- Taking a name. -/
theorem expect_name (h : S.Near n k c c') :
    S.Simulates c c' expectName expectName (S.After n (k + 1)) := by
  refine .bind (expect h (by decide)) ?_
  rintro t t' d d' ⟨htoken, hnear⟩
  exact .pure ⟨S.text_eq htoken, hnear⟩

/-- Taking a token of a class if it is next. -/
theorem accept {kind : TokenKind} (h : S.Near n k c c') (hkind : kind ≠ .eof ∧ kind ≠ .semi) :
    S.Simulates c c' (Parser.accept kind) (Parser.accept kind) (S.AfterIf id n k) := by
  refine .peek (.ite (h.peek.kind_iff hkind) ?_ ?_)
  · intro htest
    exact .advance (.pure ⟨rfl, h.advance (htest ▸ hkind.1)⟩)
  · intro _
    exact .pure ⟨rfl, h⟩

/-- Taking a keyword if it is next. -/
theorem accept_keyword {word : String} (h : S.Near n k c c') :
    S.Simulates c c' (acceptKeyword word) (acceptKeyword word) (S.AfterIf id n k) := by
  refine .peek (.ite (by rw [is_keyword_eq h.peek]) ?_ ?_)
  · intro htest
    exact .advance (.pure ⟨rfl, h.advance (kind_ne_eof_of_is_keyword htest)⟩)
  · intro _
    exact .pure ⟨rfl, h⟩

/-- Going on after a question whose answer tells whether a token has been taken. -/
theorem Simulates.then_if {p q : Parser Bool} {f f' : Bool → Parser α}
    (hp : S.Simulates c c' p q (S.AfterIf id n k))
    (hyes : ∀ d d', S.Near n (k + 1) d d' → S.Simulates d d' (f true) (f' true) Q)
    (hno : ∀ d d', S.Near n k d d' → S.Simulates d d' (f false) (f' false) Q) :
    S.Simulates c c' (p >>= f) (q >>= f') Q := by
  refine .bind hp ?_
  rintro answer _ d d' ⟨rfl, hnear⟩
  cases answer with
  | true => exact hyes d d' hnear
  | false => exact hno d d' hnear

/-- A question with a test on its answer. -/
theorem Simulates.branch {p q : Parser Bool} {p₁ p₂ q₁ q₂ : Parser α}
    (hp : S.Simulates c c' p q (S.AfterIf id n k))
    (hyes : ∀ d d', S.Near n (k + 1) d d' → S.Simulates d d' p₁ q₁ Q)
    (hno : ∀ d d', S.Near n k d d' → S.Simulates d d' p₂ q₂ Q) :
    S.Simulates c c' (p >>= fun answer => if answer then p₁ else p₂)
      (q >>= fun answer => if answer then q₁ else q₂) Q :=
  hp.then_if hyes hno

/-- Trying a parser, and what is read after that: after its result, or after nothing from the old
places. If the first parser comes to the end of its row, it has to fail in what follows as well. -/
theorem attempt_then {p q : Parser α} {f f' : Option α → Parser β}
    {R : β → β → Cursor → Cursor → Prop} (h : S.Near n k c c')
    (hp : S.Simulates c c' p q (S.After n k))
    (hf : ∀ found d d', S.Near n k d d' → S.Simulates d d' (f found) (f' found) R)
    (hstarved : ∀ M M₁ error, S.goesOn → S.kept M → p c M = (.error (.wrong error), M₁) →
      error.found = "EOF" → S.kept M₁ → S.Fails (f none c M₁)) :
    S.Simulates c c' (Parser.attempt p >>= f) (Parser.attempt q >>= f') R := by
  intro M M' hmemo
  have hends := hp M M' hmemo
  rw [run_bind, run_bind]
  unfold Parser.attempt
  generalize hrun : p c M = run at hends ⊢
  generalize q c' M' = run' at hends ⊢
  cases hends with
  | ok hresult hmemo =>
      obtain ⟨rfl, hd⟩ := hresult
      exact hf _ _ _ hd _ _ hmemo
  | wrong detail expected htoken hmemo => exact hf none c c' h _ _ hmemo
  | fails run' hfails =>
      cases hfails with
      | tooDeep hshallow => exact .fails _ (.tooDeep hshallow)
      | starved hgoesOn hfound hkept =>
          exact .fails _ (hstarved M _ _ hgoesOn (S.kept_of_memo hmemo) hrun hfound hkept)

/-- A bound on the steps of a loop that each take a token is never met. -/
theorem Near.steps_pos {steps : Nat} (h : S.Near n k c c') (hsteps : n < steps + k) :
    ∃ fewer, steps = fewer + 1 :=
  ⟨steps - 1, by have := h.bound; omega⟩

/-- Skipping tokens of some classes. Only the second parser can skip what follows the first row. -/
theorem skip_kinds {kinds : List TokenKind} (hkinds : .eof ∉ kinds) {steps steps' : Nat}
    (h : S.Near n k c c') (hsteps : n < steps + k) (hsteps' : n < steps' + k) :
    S.Simulates c c' (skipKinds kinds steps) (skipKinds kinds steps') (S.Paused n k) := by
  induction steps generalizing steps' k c c' with
  | zero => exact absurd (h.steps_pos hsteps) (by simp)
  | succ steps ih =>
      obtain ⟨steps', rfl⟩ := h.steps_pos hsteps'
      cases h.peek with
      | ended hgoesOn heof hsemi =>
          intro M M' hmemo
          obtain ⟨after, hrun⟩ := skip_kinds_run kinds (steps' + 1) c' M'
          rw [hrun]
          have hstay : skipKinds kinds (steps + 1) c M = (.ok ((), c), M) := by
            show (if kinds.contains c.peek.kind then _ else _ : Parser Unit) c M = _
            rw [heof, if_neg (by simpa using hkinds)]
            rfl
          rw [hstay]
          exact .ok (.inr ⟨hgoesOn, heof⟩) hmemo
      | same htoken =>
          refine .peek (.ite (by rw [S.kind_eq htoken]) ?_ ?_)
          · intro htest
            have heof : c.peek.kind ≠ .eof := by
              intro heof
              rw [heof] at htest
              exact hkinds (List.contains_iff_mem.1 htest)
            refine .advance ((ih (h.advance heof) (by omega) (by omega)).mono ?_)
            exact fun _ _ _ _ hpaused => hpaused.imp_left (·.mono (Nat.le_succ k))
          · intro _
            exact .pure (.inl h)

/-- At the end of the source, no more items are read. -/
theorem items_until_eof {closing : List TokenKind} (hclosing : .eof ∈ closing)
    (separate : Parser Unit) (item : Parser α) (steps : Nat) (done : List α)
    (heof : c.peek.kind = .eof) (M : BraceMemo) :
    itemsUntil closing separate item (steps + 1) done c M = (.ok (done.reverse, c), M) := by
  show (if closing.contains c.peek.kind then _ else _ : Parser (List α)) c M = _
  rw [heof, if_pos (List.contains_iff_mem.2 hclosing)]
  rfl

/-- Items up to a closing token. Every item takes a token, so the steps suffice. The first parser
may also come to the end of its row, where the second goes on. -/
theorem items_until {closing : List TokenKind} (heof : .eof ∈ closing)
    {separate separate' : Parser Unit} {item item' : Parser α} {steps steps' : Nat}
    (done : List α) (h : S.Near n k c c') (hsteps : n < steps + k) (hsteps' : n < steps' + k)
    (hseparate : ∀ j d d', k ≤ j → S.Near n j d d' →
      S.Simulates d d' separate separate' (S.Paused n j))
    (hitem : ∀ j d d', k ≤ j → S.Near n j d d' →
      S.Simulates d d' item item' (S.After n (j + 1)))
    {M M' : BraceMemo} (hmemo : S.memo M M') :
    S.Ends (S.After n k) (itemsUntil closing separate item steps done c M)
        (itemsUntil closing separate' item' steps' done c' M') ∨
      ∃ items d M₁, S.Dry d ∧ S.kept M₁ ∧
        itemsUntil closing separate item steps done c M = (.ok (items, d), M₁) := by
  induction steps generalizing steps' k c c' done M M' with
  | zero => exact absurd (h.steps_pos hsteps) (by simp)
  | succ steps ih =>
      obtain ⟨steps', rfl⟩ := h.steps_pos hsteps'
      cases h.peek with
      | ended hgoesOn hkind hsemi =>
          exact .inr ⟨_, c, M, ⟨hgoesOn, hkind⟩, S.kept_of_memo hmemo,
            items_until_eof heof separate item steps done hkind M⟩
      | same htoken =>
          show S.Ends _ ((if closing.contains c.peek.kind then _ else _ : Parser (List α)) c M)
              ((if closing.contains c'.peek.kind then _ else _ : Parser (List α)) c' M') ∨
            ∃ items d M₁, S.Dry d ∧ S.kept M₁ ∧
              (if closing.contains c.peek.kind then _ else _ : Parser (List α)) c M = _
          rw [← S.kind_eq htoken]
          split
          · exact .inl (.ok ⟨rfl, h⟩ hmemo)
          · rw [run_bind, run_bind]
            have hnext := hitem k c c' (Nat.le_refl k) h M M' hmemo
            generalize item c M = run at hnext ⊢
            generalize item' c' M' = run' at hnext ⊢
            cases hnext with
            | wrong detail expected htoken hmemo => exact .inl (.wrong detail expected htoken hmemo)
            | fails run' hfails => exact .inl (.fails _ (.bind _ hfails))
            | @ok next _ d d' M M' hresult hmemo =>
                obtain ⟨rfl, hd⟩ := hresult
                dsimp only
                rw [run_bind, run_bind]
                have hskip := hseparate (k + 1) d d' (Nat.le_succ k) hd M M' hmemo
                generalize separate d M = run at hskip ⊢
                generalize separate' d' M' = run' at hskip ⊢
                cases hskip with
                | wrong detail expected htoken hmemo =>
                    exact .inl (.wrong detail expected htoken hmemo)
                | fails run' hfails => exact .inl (.fails _ (.bind _ hfails))
                | @ok _ _ e e' M M' hpaused hmemo =>
                    dsimp only
                    obtain he | he := hpaused
                    · -- The item has taken a token, so one step fewer exceeds what is left.
                      refine (ih (next :: done) he (by omega)
                        (show n < steps' + (k + 1) by omega) ?_ ?_ hmemo).imp_left ?_
                      · exact fun j d d' hj => hseparate j d d' (by omega)
                      · exact fun j d d' hj => hitem j d d' (by omega)
                      · exact fun hends => hends.mono fun _ _ _ _ hafter =>
                          ⟨hafter.1, hafter.2.mono (Nat.le_succ k)⟩
                    · have hbound := hd.bound
                      obtain ⟨steps, rfl⟩ := Nat.exists_eq_add_one.mpr (show 0 < steps by omega)
                      exact .inr ⟨_, e, M, he, S.kept_of_memo hmemo,
                        items_until_eof heof separate item steps (next :: done) he.2 M⟩

/-- Items up to a closing token, and what is read after them. At the end of its row, the first
parser has only that to read, and fails. -/
theorem items_until_then {closing : List TokenKind} (heof : .eof ∈ closing)
    {separate separate' : Parser Unit} {item item' : Parser α} {rest rest' : List α → Parser β}
    {R : β → β → Cursor → Cursor → Prop} {steps steps' : Nat}
    (h : S.Paused n k () () c c') (hpos : 0 < steps) (hsteps : n < steps + k)
    (hsteps' : n < steps' + k)
    (hseparate : ∀ j d d', k ≤ j → S.Near n j d d' →
      S.Simulates d d' separate separate' (S.Paused n j))
    (hitem : ∀ j d d', k ≤ j → S.Near n j d d' →
      S.Simulates d d' item item' (S.After n (j + 1)))
    (hrest : ∀ items d d', S.Near n k d d' → S.Simulates d d' (rest items) (rest' items) R)
    (hdry : ∀ items d M, S.Dry d → S.kept M → S.Fails (rest items d M)) :
    S.Simulates c c' (itemsUntil closing separate item steps [] >>= rest)
      (itemsUntil closing separate' item' steps' [] >>= rest') R := by
  intro M M' hmemo
  obtain h | h := h
  · rw [run_bind, run_bind]
    obtain hends | ⟨items, d, M₁, hd, hkept, hrun⟩ :=
      items_until heof [] h hsteps hsteps' hseparate hitem hmemo
    · refine .bind ?_ hends
      rintro items _ d d' ⟨rfl, hd⟩
      exact hrest items d d' hd
    · rw [hrun]
      exact .fails _ (hdry items d M₁ hd hkept)
  · obtain ⟨steps, rfl⟩ := Nat.exists_eq_add_one.mpr hpos
    rw [run_bind, items_until_eof heof separate item steps [] h.2 M]
    exact .fails _ (hdry [] c M h (S.kept_of_memo hmemo))

/-- Items with commas between them. -/
theorem comma_items {closing : TokenKind} (hclosing : closing ≠ .eof ∧ closing ≠ .semi)
    {item item' : Parser α} {steps steps' : Nat}
    (done : List α) (h : S.Near n k c c') (hsteps : n < steps + k) (hsteps' : n < steps' + k)
    (hitem : ∀ j d d', k ≤ j → S.Near n j d d' →
      S.Simulates d d' item item' (S.After n (j + 1))) :
    S.Simulates c c' (commaItems closing item steps done) (commaItems closing item' steps' done)
      (S.After n k) := by
  induction steps generalizing steps' k c c' done with
  | zero => exact absurd (h.steps_pos hsteps) (by simp)
  | succ steps ih =>
      obtain ⟨steps', rfl⟩ := h.steps_pos hsteps'
      refine .peek (.ite (h.peek.kind_iff hclosing) ?_ ?_)
      · intro _
        exact .pure ⟨rfl, h⟩
      · intro _
        refine .then_eq (hitem k c c' (Nat.le_refl k) h) fun next d d' hd => ?_
        refine .branch (accept hd (by decide)) ?_ ?_
        · intro e e' he
          refine (ih (next :: done) he (by omega) (by omega) ?_).weaken (Nat.le_add_right k 2)
          exact fun j d d' hj => hitem j d d' (by omega)
        · exact fun e e' he => .pure ⟨rfl, he.mono (Nat.le_succ k)⟩

/-- Items each preceded by a comma. -/
theorem comma_tail {closing : Option TokenKind}
    (hclosing : closing ≠ some .eof ∧ closing ≠ some .semi) {item item' : Parser α}
    {steps steps' : Nat} (done : List α) (h : S.Near n k c c') (hsteps : n < steps + k)
    (hsteps' : n < steps' + k)
    (hitem : ∀ j d d', k ≤ j → S.Near n j d d' →
      S.Simulates d d' item item' (S.After n (j + 1))) :
    S.Simulates c c' (commaTail closing item steps done) (commaTail closing item' steps' done)
      (S.After n k) := by
  have hclosed {d d' : Cursor} (hmeet : S.Meets d.peek d'.peek) :
      closing = some d.peek.kind ↔ closing = some d'.peek.kind := by
    cases closing with
    | none => simp
    | some kind =>
        have hkind : kind ≠ .eof ∧ kind ≠ .semi := by simpa using hclosing
        simpa only [Option.some.injEq, eq_comm] using hmeet.kind_iff hkind
  induction steps generalizing steps' k c c' done with
  | zero => exact absurd (h.steps_pos hsteps) (by simp)
  | succ steps ih =>
      obtain ⟨steps', rfl⟩ := h.steps_pos hsteps'
      refine .branch (accept h (by decide)) ?_ ?_
      · intro d d' hd
        refine .peek (.ite (hclosed hd.peek) ?_ ?_)
        · intro _
          exact .pure ⟨rfl, hd.mono (Nat.le_succ k)⟩
        · intro _
          refine .then_eq (hitem (k + 1) d d' (Nat.le_succ k) hd) fun next e e' he => ?_
          refine (ih (next :: done) he (by omega) (by omega) ?_).weaken (Nat.le_add_right k 2)
          exact fun j d d' hj => hitem j d d' (by omega)
      · exact fun d d' hd => .pure ⟨rfl, hd⟩

/-- Operands joined by operators of one level. -/
theorem left_chain {operator : Parser (Option BinaryOperator)} {operand operand' : Parser Expr}
    {steps steps' : Nat} (left : Expr) (h : S.Near n k c c') (hsteps : n < steps + k)
    (hsteps' : n < steps' + k)
    (hoperator : ∀ j d d', S.Near n j d d' →
      S.Simulates d d' operator operator (S.AfterIf Option.isSome n j))
    (hoperand : ∀ j d d', S.Near n j d d' →
      S.Simulates d d' operand operand' (S.After n (j + 1))) :
    S.Simulates c c' (leftChain operator operand steps left)
      (leftChain operator operand' steps' left) (S.After n k) := by
  induction steps generalizing steps' k c c' left with
  | zero => exact absurd (h.steps_pos hsteps) (by simp)
  | succ steps ih =>
      obtain ⟨steps', rfl⟩ := h.steps_pos hsteps'
      refine .bind (hoperator k c c' h) ?_
      rintro found _ d d' ⟨rfl, hd⟩
      cases found with
      | none => exact .pure ⟨rfl, hd⟩
      | some operator =>
          refine .then_eq (hoperand (k + 1) d d' hd) fun right e e' he => ?_
          exact (ih _ he (by omega) (by omega)).weaken (Nat.le_add_right k 2)

end Parts

end Simulation

end Script
