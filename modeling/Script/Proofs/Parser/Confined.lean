import Mathlib
import Script.Proofs.Parser.Memo
import Script.Proofs.Token.Sequence

/-!
# The parser stays within its tokens

Two runs are compared: one over a row of tokens that holds the end of the source, and one over the
same row with any other tokens behind it. `beyond` is the simulation between them; its tokens are
those of the first row. So what lies behind the end of the source is never looked at, and the token
that a parser refuses is one of the row. Since levels and steps suffice as well, every source that
is cut into tokens is a program or is refused at one of its tokens: `Program.of_tokens_confined`.
-/

namespace Script

open Token Cursor Grammar

namespace Simulation

/-- Places of a row of tokens and of that row with others behind it: what is left is the same up to
the others, and the end of the source is still to come. -/
structure Ahead (tokens others : List Token) (c c' : Cursor) : Prop where
  closed : ∃ t ∈ c.rest, t.kind = .eof
  among : ∀ t ∈ c.rest, t ∈ tokens
  rest : c'.rest = c.rest ++ others
  line : c'.previousLine = c.previousLine

section Ahead

variable {tokens others row : List Token} {c c' : Cursor}

/-- A token is left where the end of the source is still to come. -/
theorem Ahead.exists_cons (h : Ahead tokens others c c') : ∃ t row, c.rest = t :: row := by
  obtain ⟨t, ht, -⟩ := h.closed
  exact List.exists_cons_of_ne_nil (List.ne_nil_of_mem ht)

/-- The next token is the same. -/
theorem Ahead.peek_eq (h : Ahead tokens others c c') : c'.peek = c.peek := by
  obtain ⟨t, row, hrest⟩ := h.exists_cons
  rw [peek, peek, h.rest, hrest]
  rfl

/-- Taking a token that is not the end of the source. -/
theorem Ahead.advance (h : Ahead tokens others c c') (heof : c.peek.kind ≠ .eof) :
    Ahead tokens others c.advance c'.advance := by
  obtain ⟨t, row, hrest⟩ := h.exists_cons
  obtain ⟨last, hlast, hkind⟩ := h.closed
  have hpeek : c.peek = t := by rw [peek, hrest]; rfl
  rw [advance_eq heof, advance_eq (h.peek_eq ▸ heof), h.peek_eq]
  rw [hrest] at hlast
  -- What is taken is not the end of the source, so the end is among what is left.
  refine ⟨⟨last, ?_, hkind⟩, fun other hother => h.among other (List.mem_of_mem_tail hother), ?_,
    rfl⟩
  · rw [hrest]
    refine (List.mem_cons.mp hlast).resolve_left ?_
    rintro rfl
    exact heof (hpeek ▸ hkind)
  · show c'.rest.tail = c.rest.tail ++ others
    rw [h.rest, hrest]
    rfl

/-- The tokens are the same up to the end of the source. -/
theorem rows_ahead {last : Token} (hlast : last ∈ row) (hkind : last.kind = .eof)
    (hamong : ∀ t ∈ row, t ∈ tokens) :
    Rows (fun t t' => t = t' ∧ t ∈ tokens) False row (row ++ others) := by
  induction row with
  | nil => cases hlast
  | cons t row ih =>
      obtain ⟨ht, hrow⟩ := List.forall_mem_cons.mp hamong
      rcases List.mem_cons.mp hlast with rfl | hlast
      · exact .stop _ _ hkind (.same ⟨rfl, ht⟩)
      · exact .cons ⟨rfl, ht⟩ (ih hlast hrow)

end Ahead

/-- Two parsers without a memory, on a row of tokens and on that row with others behind it. The
first may be short of levels. -/
def beyond (tokens others : List Token) : Simulation where
  token t t' := t = t' ∧ t ∈ tokens
  place := Ahead tokens others
  memo M M' := M = [] ∧ M' = []
  kept M := M = []
  goesOn := False
  shallow := True
  kept_of_memo := kept_nothing
  kind_eq h := congrArg Token.kind h.1
  text_eq h := congrArg Token.text h.1
  rest h := by
    obtain ⟨last, hlast, hkind⟩ := h.closed
    rw [h.rest]
    exact rows_ahead hlast hkind h.among
  advance := Ahead.advance
  same_line h _ _ := by rw [onSameLine, onSameLine, h.line, h.peek_eq]
  return_line h hword _ := by
    have hnext := h.advance (kind_ne_eof_of_is_keyword hword)
    rw [hnext.peek_eq, h.peek_eq]

end Simulation

namespace Program

open Simulation

variable {tokens : List Token}

/-- A row of tokens that holds the end of the source is a program, or one of its tokens is refused;
and it is read in the same way with any other tokens behind it. -/
theorem of_tokens_closed (h : ∃ t ∈ tokens, t.kind = .eof) (others : List Token) :
    ofTokens (tokens ++ others) = ofTokens tokens ∧
      ((∃ program, ofTokens tokens = .ok program) ∨
        ∃ error, ∃ token ∈ tokens, ofTokens tokens = .error (.wrong error) ∧
          error.start = token.pos ∧ error.stop = token.stop ∧ error.found = token.describe) := by
  -- Both rows are read without a memory: its entries hold the tokens left, and these differ.
  have hplain (row : List Token) : ofTokens row = ofTokensWithin false (row.length + 1) row :=
    (of_tokens_within_eq true (row.length + 1) row (Nat.lt_succ_self _)).1
  have hdeep : ofTokens tokens ≠ .error .tooDeep :=
    (of_tokens_within_eq true (tokens.length + 1) tokens (Nat.lt_succ_self _)).2
  have hlength : tokens.length ≤ (tokens ++ others).length := by
    rw [List.length_append]
    exact Nat.le_add_right _ _
  have hnear : (beyond tokens others).Near tokens.length 0 (start tokens)
      (start (tokens ++ others)) :=
    ⟨⟨h, fun _ ht => ht, rfl, rfl⟩, Nat.le_refl _, fun hk => absurd hk (by decide)⟩
  have hends := program_plain trivial id (Nat.lt_succ_self _) (Nat.lt_succ_of_le hlength)
    (Nat.succ_le_succ hlength) hnear [] [] ⟨rfl, rfl⟩
  rw [hplain, of_tokens_within_run] at hdeep ⊢
  rw [hplain, of_tokens_within_run]
  generalize Grammar.program false (tokens.length + 1) (tokens.length + 1) (start tokens) [] = run
    at hends hdeep ⊢
  generalize Grammar.program false _ _ (start (tokens ++ others)) [] = run' at hends ⊢
  cases hends with
  | ok hresult _ =>
      obtain ⟨rfl, -⟩ := hresult
      exact ⟨rfl, .inl ⟨_, rfl⟩⟩
  | wrong detail expected htoken _ =>
      obtain ⟨rfl, hmem⟩ := htoken
      exact ⟨rfl, .inr ⟨_, _, hmem, rfl, rfl, rfl, rfl⟩⟩
  | fails run' hfails =>
      cases hfails with
      | starved hgoesOn _ _ => exact hgoesOn.elim
      | tooDeep _ => exact absurd rfl hdeep

/-- Every source that is cut into tokens is a program, or one of its tokens is refused: the error
has the place and the description of that token. What lies behind the end of the source is never
read, so any other tokens there change nothing; nor does a higher limit on the depth, with braces
remembered or not. -/
theorem of_tokens_confined {source : String} (h : tokenize source = .ok tokens) :
    ((∃ program, ofTokens tokens = .ok program) ∨
      ∃ error, ∃ token ∈ tokens, ofTokens tokens = .error (.wrong error) ∧
        error.start = token.pos ∧ error.stop = token.stop ∧ error.found = token.describe) ∧
    ∀ (others : List Token) (memoise : Bool) (limit : Nat), (tokens ++ others).length < limit →
      ofTokensWithin memoise limit (tokens ++ others) = ofTokens tokens := by
  have hclosed : ∃ t ∈ tokens, t.kind = .eof := by
    obtain ⟨cut, stop, last, rfl, -⟩ := tokens_from_break h
    exact ⟨_, List.mem_append_right _ (List.mem_singleton_self _), rfl⟩
  refine ⟨(of_tokens_closed hclosed []).2, fun others memoise limit hlimit => ?_⟩
  rw [← (of_tokens_closed hclosed others).1]
  have hplain := (of_tokens_within_eq true _ (tokens ++ others) (Nat.lt_succ_self _)).1
  exact (of_tokens_within_eq memoise limit (tokens ++ others) hlimit).1.trans hplain.symm

/-- A brace and a parenthesis that are not closed before the end of the source but behind it. -/
theorem of_tokens_confined_unclosed :
    let source := "\x7b f("
    let tokens : List Token :=
      [⟨.lbrace, "\x7b", 0, 1, 1⟩, ⟨.name, "f", 2, 3, 1⟩, ⟨.lparen, "(", 3, 4, 1⟩,
       ⟨.eof, "", 4, 4, 1⟩]
    let others : List Token := [⟨.rparen, ")", 4, 5, 1⟩, ⟨.rbrace, "\x7d", 5, 6, 1⟩]
    tokenize source = .ok tokens ∧
      (∃ error, ∃ token ∈ tokens, ofTokens tokens = .error (.wrong error) ∧
        error.start = token.pos ∧ error.stop = token.stop ∧ error.found = token.describe) ∧
      (tokens ++ others).length < 7 ∧
      ofTokensWithin true 7 (tokens ++ others) = ofTokens tokens := by
  intro source tokens others
  have htokens : tokenize source = .ok tokens := by decide +kernel
  have hrefused : (ofTokens tokens).isOk = false := by decide +kernel
  obtain ⟨hends, hbeyond⟩ := of_tokens_confined htokens
  refine ⟨htokens, hends.resolve_left ?_, by decide, hbeyond others true 7 (by decide)⟩
  rintro ⟨program, hprogram⟩
  rw [hprogram] at hrefused
  cases hrefused

end Program

end Script
