import Script.Proofs.Heap.Room
import Script.Proofs.Parser.Memo

/-!
# Room for nested sources

How deeply a source may be nested follows from a limit too. Under a higher limit the parser goes the
same way and remembers the same braces, until it is short of levels under the lower one: `raised` is
the simulation between the two. So a higher limit changes neither the program that is read nor the
error, but for the failure to read it at all: `Program.of_tokens_within_deepens`.
-/

namespace Script

open Grammar Cursor

namespace Simulation

/-- The parser under two limits, on the same tokens. It remembers the same braces. -/
def raised (tokens : List Token) (steps : Nat) : Simulation :=
  { overTokens tokens steps True with
    memo := fun M M' => M' = M ∧ Faithful tokens steps M
    kept_of_memo := fun h => h.2 }

variable {tokens : List Token} {steps n k depth depth' : Nat} {c c' : Cursor}

/-- The same brace is found under both limits, if it is found when it is read afresh. -/
theorem remembered_raised {form form' : Parser Expr}
    (hform : (raised tokens steps).Simulates c c form form' ((raised tokens steps).After n k))
    (hplain : (overTokens tokens steps False).Ends ((overTokens tokens steps False).After n k)
      (plainBrace steps c, []) (plainBrace steps c, []))
    (htrack : OnTrack tokens c) (hbrace : c.peek.kind = .lbrace)
    (hfound : ∀ M, Faithful tokens steps M →
      plainBrace steps c = (form c M).1 ∨ (form c M).1 = .error .tooDeep) :
    (raised tokens steps).Simulates c c (remembered form) (remembered form')
      ((raised tokens steps).After n k) := by
  rintro _ M ⟨rfl, hmemo⟩
  cases hlookup : M.lookup c.index with
  | some entry =>
      have hentry := hmemo c.index entry hlookup c htrack rfl hbrace
      have hsame (form : Parser Expr) : remembered form c M = (plainBrace steps c, M) := by
        rw [hentry]
        cases entry <;> simp only [remembered, hlookup, ofEntry]
      rw [hsame, hsame]
      have hends := hplain.with_memo (S := raised tokens steps) (fun _ => rfl)
        (fun _ htrack => ⟨rfl, htrack⟩) ⟨rfl, hmemo⟩
      exact hends
  | none =>
      have hends := hform M M ⟨rfl, hmemo⟩
      have hentry := hfound M hmemo
      simp only [remembered, hlookup]
      generalize form c M = run at hends hentry ⊢
      generalize form' c M = run' at hends ⊢
      cases hends with
      | @ok expr _ after _ _ _ hresult hafter =>
          obtain ⟨rfl, hnear⟩ := hresult
          obtain ⟨⟨rfl, hplace⟩, hbound, hbegun⟩ := hnear
          obtain ⟨rfl, hafter⟩ := hafter
          have hplain := hentry.resolve_right (by simp)
          exact .ok ⟨rfl, ⟨rfl, hplace⟩, hbound, hbegun⟩
            ⟨rfl, hafter.remember htrack (.ok (expr, after)) hplain⟩
      | @wrong t t' _ _ detail expected htoken hafter =>
          obtain rfl : t = t' := htoken
          obtain ⟨rfl, hafter⟩ := hafter
          have hplain := hentry.resolve_right (by simp)
          exact .wrong detail expected rfl ⟨rfl, hafter.remember htrack (.error _) hplain⟩
      | fails _ hfails =>
          cases hfails with
          | starved hgoesOn _ _ => exact hgoesOn.elim
          | tooDeep hshallow => exact .fails _ (.tooDeep hshallow)

/-- Grammars whose deeper parsers do the same under both limits. -/
theorem similar_raised (hsteps : n < steps) (memoise : Bool) (hdepth : depth ≤ depth')
    (h : ∀ (nonterminal : Nonterminal) {k : Nat} {c c' : Cursor},
      (raised tokens steps).Near n k c c' →
        (raised tokens steps).Simulates c c' (parserOf memoise steps depth nonterminal)
          (parserOf memoise steps depth' nonterminal) ((raised tokens steps).After n (k + 1))) :
    SimilarBraces (raised tokens steps) n (within memoise steps depth)
      (within memoise steps depth') := by
  have hsimilar : Similar (raised tokens steps) n (within memoise steps depth)
      (within memoise steps depth') :=
    { parse := fun nonterminal _ _ _ hnear _ => h nonterminal hnear
      lt_steps := hsteps
      lt_steps' := hsteps
      le_depth := .inl trivial
      le_depth' := .inl hdepth
      retry := fun hgoesOn => hgoesOn.elim }
  refine { hsimilar with braced := fun {k c c'} hnear hbrace => ?_ }
  have hform := hsimilar.brace_form hnear hbrace
  cases memoise with
  | false => exact hform
  | true =>
      obtain ⟨⟨rfl, htrack⟩, hbound, hbegun⟩ := hnear
      have hfewer : ∀ m < c.rest.length, UpTo tokens steps m := fun m hm => up_to (by omega)
      have hlength : c.rest.length < steps := by omega
      obtain ⟨-, hplain⟩ := plain_brace_run hfewer hlength htrack hbrace (Nat.le_refl _)
      refine remembered_raised hform (hplain.mono fun _ _ _ _ hresult => ?_) htrack hbrace ?_
      · exact ⟨hresult.1, hresult.2.raise (Nat.le_refl 1) hbound⟩
      · exact fun M hmemo => plain_brace_of_run hlength htrack hbrace hmemo rfl

/-- All nonterminals are read the same under both limits. By induction on the lower one. -/
theorem parser_of_raised (hsteps : n < steps) (memoise : Bool) (hdepth : depth ≤ depth')
    (nonterminal : Nonterminal) (h : (raised tokens steps).Near n k c c') :
    (raised tokens steps).Simulates c c' (parserOf memoise steps depth nonterminal)
      (parserOf memoise steps depth' nonterminal) ((raised tokens steps).After n (k + 1)) := by
  induction depth generalizing depth' nonterminal k c c' with
  | zero => exact .too_deep trivial _
  | succ depth ih =>
      obtain ⟨depth', rfl⟩ := Nat.exists_eq_add_one.mpr (show 0 < depth' by omega)
      have hfewer : depth ≤ depth' := Nat.le_of_succ_le_succ hdepth
      rw [parser_of_succ, parser_of_succ]
      exact (similar_raised hsteps memoise hfewer
        fun nonterminal {_ _ _} => ih hfewer nonterminal).rule nonterminal h

end Simulation

namespace Program

open Simulation

/-- A source that may be nested more deeply is read as the same program, or refused with the same
error, unless it was nested too deeply. -/
theorem of_tokens_within_deepens (memoise : Bool) {limit limit' : Nat} (h : limit ≤ limit')
    (tokens : List Token) :
    Deepens .tooDeep (ofTokensWithin memoise limit tokens)
      (ofTokensWithin memoise limit' tokens) := by
  have hsteps : tokens.length < tokens.length + 1 := Nat.lt_succ_self _
  have hnear : (raised tokens (tokens.length + 1)).Near tokens.length 0 (start tokens)
      (start tokens) :=
    ⟨⟨rfl, .start tokens⟩, Nat.le_refl _, fun hk => absurd hk (by decide)⟩
  have hgrammars : SimilarBraces (raised tokens (tokens.length + 1)) tokens.length _ _ :=
    similar_raised hsteps memoise h fun nonterminal {_ _ _} =>
      parser_of_raised hsteps memoise h nonterminal
  have hends := hgrammars.toSimilar.program id hnear
    (fun _ _ _ => parser_of_raised hsteps memoise h .statement) [] []
    ⟨rfl, Faithful.nil tokens _⟩
  rw [of_tokens_within_run, of_tokens_within_run]
  generalize Grammar.program memoise (tokens.length + 1) limit (start tokens) [] = run at hends ⊢
  generalize Grammar.program memoise (tokens.length + 1) limit' (start tokens) [] = run' at hends ⊢
  cases hends with
  | ok hresult _ =>
      obtain ⟨rfl, -⟩ := hresult
      exact .inr rfl
  | wrong detail expected htoken _ =>
      obtain rfl : _ = _ := htoken
      exact .inr rfl
  | fails _ hfails =>
      cases hfails with
      | starved hgoesOn _ _ => exact hgoesOn.elim
      | tooDeep _ => exact .inl rfl

end Program

end Script
