import Script.Proofs.Expr.Render
import Script.Proofs.Parser.Simulation

/-!
# What a parser makes of a row of pieces

`Cursor.Shows` says that what is left of a source is a given row of pieces, all on one line and
without a sign of assignment. `Parser.Yields` says that a parser takes the front of such a row and
leaves the rest. The lemmas here say so for the small parsers that the grammar is built from.
-/

namespace Script

/-- The first of a row of pieces, which is the end of the source if there is none. -/
def Piece.front (pieces : List Piece) : Piece :=
  pieces.headD Piece.ending

@[simp]
theorem Piece.front_cons (piece : Piece) (pieces : List Piece) : front (piece :: pieces) = piece :=
  rfl

namespace Cursor

/-- The rest of the source is this row of pieces, all on the first line. -/
structure Shows (cursor : Cursor) (pieces : List Piece) : Prop where
  line : cursor.previousLine.all (· == 1) = true
  tokens : List.Forall₂ Piece.Fits (pieces ++ [Piece.ending]) cursor.rest
  inside : ∀ piece ∈ pieces, piece.kind ≠ .eof
  noAssignment : ∀ piece ∈ pieces, piece ≠ ⟨.op, "="⟩

variable {cursor : Cursor} {piece : Piece} {pieces : List Piece}

/-- The next token fits the first piece. -/
theorem Shows.peek (h : cursor.Shows pieces) : (Piece.front pieces).Fits cursor.peek := by
  obtain ⟨index, line, rest⟩ := cursor
  obtain ⟨-, htokens, -, -⟩ := h
  cases pieces with
  | nil =>
      rcases htokens with _ | ⟨hfits, _⟩
      exact hfits
  | cons piece pieces =>
      rcases htokens with _ | ⟨hfits, _⟩
      exact hfits

/-- Taking a token leaves the other pieces. -/
theorem Shows.advance (h : cursor.Shows (piece :: pieces)) : cursor.advance.Shows pieces := by
  obtain ⟨index, line, rest⟩ := cursor
  obtain ⟨-, htokens, hinside, hassign⟩ := h
  rcases htokens with _ | ⟨hfits, hrest⟩
  rename_i token rest
  have hkind : token.kind ≠ .eof := by
    rw [hfits.kind]
    exact hinside piece List.mem_cons_self
  unfold Cursor.advance
  dsimp only
  rw [if_neg hkind, hfits.line]
  exact ⟨rfl, hrest, fun other hother => hinside other (List.mem_cons_of_mem piece hother),
    fun other hother => hassign other (List.mem_cons_of_mem piece hother)⟩

/-- The token after the next fits the second piece. -/
theorem Shows.peek_second (h : cursor.Shows (piece :: pieces)) :
    (Piece.front pieces).Fits cursor.peekSecond := by
  have hkind : cursor.peek.kind ≠ .eof := by
    rw [h.peek.kind]
    exact h.inside piece List.mem_cons_self
  have hnext := h.advance.peek
  obtain ⟨index, line, _ | ⟨token, rest⟩⟩ := cursor
  · exact absurd rfl hkind
  · change token.kind ≠ .eof at hkind
    unfold Cursor.advance at hnext
    dsimp only at hnext
    rw [if_neg hkind] at hnext
    exact hnext

/-- All tokens stand on one line. -/
theorem Shows.on_same_line (h : cursor.Shows pieces) : cursor.onSameLine = true := by
  unfold onSameLine
  rw [h.peek.line]
  exact h.line

end Cursor

namespace Piece

variable {piece : Piece} {token : Token}

/-- A token that fits a piece is an operator exactly if the piece is. -/
theorem Fits.is_op (h : piece.Fits token) (symbol : String) :
    token.isOp symbol = decide (piece = ⟨.op, symbol⟩) := by
  unfold Token.isOp
  rw [h.kind, h.text]
  obtain ⟨kind, text⟩ := piece
  simp only [Piece.mk.injEq, Bool.decide_and, beq_eq_decide]

/-- A token that fits a piece is a keyword exactly if the piece is. -/
theorem Fits.is_keyword (h : piece.Fits token) (word : String) :
    token.isKeyword word = decide (piece = ⟨.keyword, word⟩) := by
  unfold Token.isKeyword
  rw [h.kind, h.text]
  obtain ⟨kind, text⟩ := piece
  simp only [Piece.mk.injEq, Bool.decide_and, beq_eq_decide]

end Piece

/-- Nothing in the row assigns. -/
theorem Cursor.Shows.is_no_assignment {cursor : Cursor} {pieces : List Piece} {token : Token}
    (h : cursor.Shows pieces) (hmem : token ∈ cursor.rest) : token.isOp "=" = false := by
  obtain ⟨i, rfl⟩ := List.mem_iff_get.mp hmem
  have hi : i.val < (pieces ++ [Piece.ending]).length := by
    rw [h.tokens.length_eq]
    exact i.isLt
  have hpiece := List.get_mem (pieces ++ [Piece.ending]) ⟨i.val, hi⟩
  rw [(h.tokens.get hi i.isLt).is_op]
  refine decide_eq_false ?_
  rcases List.mem_append.mp hpiece with hpiece | hpiece
  · exact h.noAssignment _ hpiece
  · rw [List.mem_singleton.mp hpiece]
    decide

namespace Parser

open Piece

variable {α β : Type}

/-- From a row of pieces the parser makes a result and leaves the given rest. -/
def Yields (parser : Parser α) (pieces : List Piece) (result : α) (after : List Piece) : Prop :=
  ∀ cursor memo, cursor.Shows pieces →
    ∃ next, parser cursor memo = (.ok (result, next), memo) ∧ next.Shows after

variable {pieces middle after : List Piece} {piece : Piece}

theorem yields_pure (result : α) (pieces : List Piece) :
    Yields (pure result) pieces result pieces :=
  fun cursor _ hshows => ⟨cursor, rfl, hshows⟩

/-- One parser after the other. -/
theorem Yields.bind {parser : Parser α} {next : α → Parser β} {first : α} {last : β}
    (hparser : Yields parser pieces first middle) (hnext : Yields (next first) middle last after) :
    Yields (parser >>= next) pieces last after := by
  intro cursor memo hshows
  obtain ⟨place, hrun, hplace⟩ := hparser cursor memo hshows
  rw [run_bind, hrun]
  exact hnext place memo hplace

/-- Looking at the next token. -/
theorem yields_peek {next : Token → Parser β} {last : β}
    (h : ∀ token, (front pieces).Fits token → Yields (next token) pieces last after) :
    Yields (peek >>= next) pieces last after := by
  intro cursor memo hshows
  have hrun : peek cursor memo = (.ok (cursor.peek, cursor), memo) := rfl
  rw [run_bind, hrun]
  exact h cursor.peek hshows.peek cursor memo hshows

/-- Looking at the place. -/
theorem yields_get {next : Cursor → Parser β} {last : β}
    (h : ∀ cursor, cursor.Shows pieces → Yields (next cursor) pieces last after) :
    Yields (get >>= next) pieces last after := by
  intro cursor memo hshows
  have hrun : (get : Parser Cursor) cursor memo = (.ok (cursor, cursor), memo) := rfl
  rw [run_bind, hrun]
  exact h cursor hshows cursor memo hshows

/-- No sign of assignment stands in the row. -/
theorem yields_unassigned {parser : Parser α} {result : α}
    (h : front pieces ≠ ⟨.op, "="⟩ → Yields parser pieces result after) :
    Yields parser pieces result after := by
  intro cursor memo hshows
  refine h ?_ cursor memo hshows
  cases pieces with
  | nil => decide
  | cons piece pieces => exact hshows.noAssignment piece List.mem_cons_self

/-- Taking the next token. -/
theorem yields_advance {next : Token → Parser β} {last : β}
    (h : ∀ token, piece.Fits token → Yields (next token) pieces last after) :
    Yields (advance >>= next) (piece :: pieces) last after := by
  intro cursor memo hshows
  have hrun : advance cursor memo = (.ok (cursor.peek, cursor.advance), memo) := rfl
  rw [run_bind, hrun]
  exact h cursor.peek hshows.peek cursor.advance memo hshows.advance

/-- Taking a token of a given class. -/
theorem yields_expect {kind : TokenKind} (hkind : piece.kind = kind) {next : Token → Parser β}
    {last : β} (h : ∀ token, piece.Fits token → Yields (next token) pieces last after) :
    Yields (expect kind >>= next) (piece :: pieces) last after := by
  intro cursor memo hshows
  have hfits : piece.Fits cursor.peek := hshows.peek
  have hrun : expect kind cursor memo = (.ok (cursor.peek, cursor.advance), memo) := by
    unfold expect
    rw [run_bind]
    show (if cursor.peek.kind = kind then advance else _ : Parser Token) cursor memo = _
    rw [if_pos (hfits.kind.trans hkind)]
    rfl
  rw [run_bind, hrun]
  exact h cursor.peek hfits cursor.advance memo hshows.advance

/-- Taking the next token if it is of the given class. -/
theorem yields_accept {kind : TokenKind} (hkind : piece.kind = kind) :
    Yields (accept kind) (piece :: pieces) true pieces := by
  refine yields_peek fun token hfits => ?_
  have hsame : token.kind = kind := hfits.kind.trans hkind
  rw [if_pos hsame]
  exact yields_advance fun _ _ => yields_pure true pieces

/-- Leaving the next token if it is of another class. -/
theorem yields_accept_not {kind : TokenKind} (hkind : (front pieces).kind ≠ kind) :
    Yields (accept kind) pieces false pieces := by
  refine yields_peek fun token hfits => ?_
  have hother : token.kind ≠ kind := by
    rw [hfits.kind]
    exact hkind
  rw [if_neg hother]
  exact yields_pure false pieces

/-- Taking the next token if it is the given keyword. -/
theorem yields_accept_keyword (word : String) :
    Yields (acceptKeyword word) (⟨.keyword, word⟩ :: pieces) true pieces := by
  refine yields_peek fun token hfits => ?_
  have hsame : token.isKeyword word = true := (hfits.is_keyword word).trans (decide_eq_true rfl)
  rw [if_pos hsame]
  exact yields_advance fun _ _ => yields_pure true pieces

/-- Leaving the next token if it is not the given keyword. -/
theorem yields_accept_keyword_not {word : String} (h : front pieces ≠ ⟨.keyword, word⟩) :
    Yields (acceptKeyword word) pieces false pieces := by
  refine yields_peek fun token hfits => ?_
  have hother : token.isKeyword word = false := (hfits.is_keyword word).trans (decide_eq_false h)
  rw [hother]
  exact yields_pure false pieces

end Parser

end Script
