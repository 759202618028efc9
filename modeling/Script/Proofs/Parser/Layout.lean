import Script.Proofs.Parser.Memo
import Script.Proofs.Token.Cover

/-!
# Layout does not matter

The parser reads the classes and texts of tokens, and their lines in two spots only: before an
opening parenthesis or bracket, and after `return`. `layouts` is the simulation between two rows of
the same classes and texts that are broken over lines alike in these spots. Together with what the
lexer says of lines, it follows that a program stays the same however it is laid out:
`Program.of_tokens_layout`.
-/

namespace Script

namespace Token

/-- A line break between two tokens can change what they mean. -/
def BreakMatters (token next : Token) : Prop :=
  next.kind = .lparen ∨ next.kind = .lbrack ∨ token.isKeyword "return" = true

/-- Equal classes. -/
theorem kind_eq_of_piece {t t' : Token} (h : t.piece = t'.piece) : t.kind = t'.kind :=
  congrArg Piece.kind h

/-- Equal texts. -/
theorem text_eq_of_piece {t t' : Token} (h : t.piece = t'.piece) : t.text = t'.text :=
  congrArg Piece.text h

end Token

open Token Cursor Grammar

namespace Simulation

/-- Two rows with the same classes and texts that are broken over lines alike where it matters. -/
inductive LaidAlike : List Token → List Token → Prop where
  | nil : LaidAlike [] []
  | single {t t' : Token} : t.piece = t'.piece → LaidAlike [t] [t']
  | cons {t t' next next' : Token} {rest rest' : List Token} : t.piece = t'.piece →
      (BreakMatters t next → (next.line = t.line ↔ next'.line = t'.line)) →
      LaidAlike (next :: rest) (next' :: rest') →
      LaidAlike (t :: next :: rest) (t' :: next' :: rest')

section Rows

variable {tokens tokens' : List Token}

/-- The rows correspond token by token. -/
theorem LaidAlike.rows (h : LaidAlike tokens tokens') :
    Rows (fun t t' => t.piece = t'.piece) False tokens tokens' := by
  induction h with
  | nil => exact .nil rfl
  | single hpiece => exact .cons hpiece (.nil rfl)
  | cons hpiece _ _ ih => exact .cons hpiece ih

/-- The rows are equally long. -/
theorem LaidAlike.length_eq (h : LaidAlike tokens tokens') : tokens.length = tokens'.length := by
  induction h with
  | nil => rfl
  | single _ => rfl
  | cons _ _ _ ih => exact congrArg (· + 1) ih

/-- The first tokens correspond. -/
theorem LaidAlike.head (h : LaidAlike tokens tokens') :
    (tokens.headD default).piece = (tokens'.headD default).piece := by
  cases h with
  | nil => rfl
  | single hpiece => exact hpiece
  | cons hpiece _ _ => exact hpiece

/-- The rows after the first tokens. -/
theorem LaidAlike.tail (h : LaidAlike tokens tokens') : LaidAlike tokens.tail tokens'.tail := by
  cases h with
  | nil => exact .nil
  | single _ => exact .nil
  | cons _ _ hrest => exact hrest

/-- Where it matters, the second tokens are on the lines of the first alike. -/
theorem LaidAlike.line_iff (h : LaidAlike tokens tokens')
    (hkind : (tokens.tail.headD default).kind ≠ .eof)
    (hmatters : BreakMatters (tokens.headD default) (tokens.tail.headD default)) :
    (tokens.tail.headD default).line = (tokens.headD default).line ↔
      (tokens'.tail.headD default).line = (tokens'.headD default).line := by
  cases h with
  | nil => exact absurd rfl hkind
  | single _ => exact absurd rfl hkind
  | cons _ hline _ => exact hline hmatters

/-- Rows of the same classes and texts, given what is known of neighbours. -/
theorem laid_alike_of_neighbours (hpieces : tokens.map piece = tokens'.map piece)
    (hlines : ∀ (i : Nat) (hi : i + 1 < tokens.length) (hi' : i + 1 < tokens'.length),
      BreakMatters tokens[i] tokens[i + 1] →
      (tokens[i + 1].line = tokens[i].line ↔ tokens'[i + 1].line = tokens'[i].line)) :
    LaidAlike tokens tokens' := by
  induction tokens generalizing tokens' with
  | nil =>
      obtain rfl := List.map_eq_nil_iff.mp hpieces.symm
      exact .nil
  | cons t rest ih =>
      cases tokens' with
      | nil => cases hpieces
      | cons t' rest' =>
          obtain ⟨hpiece, hrest⟩ := List.cons.inj hpieces
          have hmore := ih hrest fun i hi hi' =>
            hlines (i + 1) (Nat.succ_lt_succ hi) (Nat.succ_lt_succ hi')
          cases hmore with
          | nil => exact .single hpiece
          | single hnext =>
              exact .cons hpiece (hlines 0 (Nat.le_refl 2) (Nat.le_refl 2)) (.single hnext)
          | cons hnext hline hmore =>
              refine .cons hpiece ?_ (.cons hnext hline hmore)
              exact hlines 0 (by simp) (by simp)

end Rows

/-- Places of two rows: what is left is laid out alike, also after the last token that has been
taken. -/
structure SameLayout (c c' : Cursor) : Prop where
  rest : LaidAlike c.rest c'.rest
  line : c.peek.kind = .lparen ∨ c.peek.kind = .lbrack → c.onSameLine = c'.onSameLine

section Places

variable {c c' : Cursor}

/-- Where one row is not at its end, neither is the other. -/
theorem SameLayout.kind_ne_eof (h : SameLayout c c') (heof : c.peek.kind ≠ .eof) :
    c'.peek.kind ≠ .eof :=
  kind_eq_of_piece h.rest.head ▸ heof

/-- Taking a token of both rows. -/
theorem SameLayout.advance (h : SameLayout c c') (heof : c.peek.kind ≠ .eof) :
    SameLayout c.advance c'.advance := by
  have hsecond := peek_advance heof
  rw [advance_eq heof] at hsecond ⊢
  rw [advance_eq (h.kind_ne_eof heof)]
  refine ⟨h.rest.tail, fun hopens => ?_⟩
  rw [hsecond] at hopens
  have hkind : c.peekSecond.kind ≠ .eof := by
    rcases hopens with hopens | hopens <;> rw [hopens] <;> decide
  have hline := h.rest.line_iff hkind (or_assoc.mp (.inl hopens))
  rw [Bool.eq_iff_iff]
  show (c.peek.line == c.peekSecond.line) = true ↔ (c'.peek.line == c'.peekSecond.line) = true
  rw [beq_iff_eq, beq_iff_eq, eq_comm, eq_comm (b := c'.peekSecond.line)]
  exact hline

/-- After `return`, the next tokens are on its line alike. -/
theorem SameLayout.return_line (h : SameLayout c c') (hword : c.peek.isKeyword "return" = true)
    (hnext : c.advance.peek.kind ≠ .eof) :
    c.advance.peek.line = c.peek.line ↔ c'.advance.peek.line = c'.peek.line := by
  have heof : c.peek.kind ≠ .eof := kind_ne_eof_of_is_keyword hword
  rw [peek_advance heof] at hnext ⊢
  rw [peek_advance (h.kind_ne_eof heof)]
  exact h.rest.line_iff hnext (.inr (.inr hword))

end Places

/-- Two parsers without a memory, on rows that are laid out alike. The first may be short of
levels. -/
def layouts : Simulation where
  token t t' := t.piece = t'.piece
  place := SameLayout
  memo M M' := M = [] ∧ M' = []
  kept M := M = []
  goesOn := False
  shallow := True
  kept_of_memo := kept_nothing
  kind_eq := kind_eq_of_piece
  text_eq := text_eq_of_piece
  rest h := h.rest.rows
  advance := SameLayout.advance
  same_line h _ := h.line
  return_line := SameLayout.return_line

end Simulation

namespace Program

open Simulation

/-- Rows that are laid out alike are the same program, if the first is a program. -/
theorem of_tokens_laid_alike {tokens tokens' : List Token} {program : Program}
    (h : LaidAlike tokens tokens') (hprogram : ofTokens tokens = .ok program) :
    ofTokens tokens' = .ok program := by
  have hlength : tokens'.length = tokens.length := h.length_eq.symm
  have hplain (row : List Token) : ofTokens row = ofTokensWithin false (row.length + 1) row :=
    (of_tokens_within_eq true (row.length + 1) row (Nat.lt_succ_self _)).1
  have hnear : layouts.Near tokens.length 0 (start tokens) (start tokens') :=
    ⟨⟨h, fun _ => rfl⟩, Nat.le_refl _, fun hk => absurd hk (by decide)⟩
  have hprogram' : layouts.Simulates (start tokens) (start tokens')
      (Grammar.program false (tokens.length + 1) (tokens.length + 1))
      (Grammar.program false (tokens.length + 1) (tokens.length + 1))
      (layouts.After tokens.length 0) :=
    program_plain trivial id (Nat.lt_succ_self _) (Nat.lt_succ_self _) (Nat.le_refl _) hnear
  have hends := hprogram' [] [] ⟨rfl, rfl⟩
  rw [hplain, of_tokens_within_run] at hprogram ⊢
  rw [hlength]
  generalize Grammar.program false (tokens.length + 1) (tokens.length + 1) (start tokens) [] = run
    at hprogram hends
  generalize Grammar.program false (tokens.length + 1) (tokens.length + 1) (start tokens') [] =
    run' at hends ⊢
  cases hends with
  | ok hresult _ =>
      obtain ⟨rfl, -⟩ := hresult
      exact hprogram
  | wrong detail expected htoken hmemo => cases hprogram
  | fails run' hfails => cases hfails <;> cases hprogram

/-- A program stays the same however it is laid out, as long as the classes and texts of its tokens
do, and so does whether there is a line break between two tokens where one matters: before an
opening parenthesis or bracket, and after `return`. -/
theorem of_tokens_layout {source source' : String} {tokens tokens' : List Token}
    {program : Program} (h : tokenize source = .ok tokens) (h' : tokenize source' = .ok tokens')
    (hpieces : tokens.map piece = tokens'.map piece)
    (hbreaks : ∀ (i : Nat) (hi : i + 1 < tokens.length) (hi' : i + 1 < tokens'.length),
      BreakMatters tokens[i] tokens[i + 1] →
      ('\n' ∈ gap source tokens[i] tokens[i + 1] ↔ '\n' ∈ gap source' tokens'[i] tokens'[i + 1]))
    (hprogram : ofTokens tokens = .ok program) : ofTokens tokens' = .ok program := by
  refine of_tokens_laid_alike (laid_alike_of_neighbours hpieces ?_) hprogram
  intro i hi hi' hmatters
  have htext : tokens[i].text = tokens'[i].text := by
    have hpiece := List.getElem_of_eq hpieces (i := i) (by rw [List.length_map]; omega)
    rw [List.getElem_map, List.getElem_map] at hpiece
    exact text_eq_of_piece hpiece
  rw [(row_of_tokenize h).line_iff hi, (row_of_tokenize h').line_iff hi', htext,
    hbreaks i hi hi' hmatters]

/-- A line break after `return`, with and without a comment. -/
theorem of_tokens_layout_return :
    let source := "return\nf"
    let source' := "return # f\n\nf"
    let program : Program := [.returnValue none, .name "f"]
    ∃ tokens tokens', tokenize source = .ok tokens ∧ tokenize source' = .ok tokens' ∧
      tokens.map piece = tokens'.map piece ∧ ofTokens tokens = .ok program ∧
      ofTokens tokens' = .ok program := by
  intro source source' program
  let tokens : List Token :=
    [⟨.keyword, "return", 0, 6, 1⟩, ⟨.name, "f", 7, 8, 2⟩, ⟨.eof, "", 8, 8, 2⟩]
  let tokens' : List Token :=
    [⟨.keyword, "return", 0, 6, 1⟩, ⟨.name, "f", 12, 13, 3⟩, ⟨.eof, "", 13, 13, 3⟩]
  have htokens : tokenize source = .ok tokens := by decide +kernel
  have htokens' : tokenize source' = .ok tokens' := by decide +kernel
  have hprogram : ofTokens tokens = .ok program := rfl
  have hgap : gap source tokens[0] tokens[1] = "\n".toList := by decide +kernel
  have hgap' : gap source' tokens'[0] tokens'[1] = " # f\n\n".toList := by decide +kernel
  refine ⟨tokens, tokens', htokens, htokens', rfl, hprogram,
    of_tokens_layout htokens htokens' rfl ?_ hprogram⟩
  intro i hi _ hmatters
  obtain _ | _ | i := i
  · rw [hgap, hgap']
    decide
  · simp [tokens, BreakMatters, isKeyword] at hmatters
  · exact absurd (show i + 3 < 3 from hi) (by omega)

end Program

end Script
