import Mathlib
import Script.Proofs.Token.Sequence
import Script.Proofs.Token.Spelling

/-!
# Where tokens stand

A token takes its text from the source with the characters around it that its class asks for, and
tokens follow each other without overlap. No line break stands around a text, so the line of the
next token is told by the breaks in the text of a token and by those in the gap after it:
`next_line_eq`. Nothing but blanks and comments stands in these gaps, so the tokens cover the
source: `tokenize_covers`.
-/

namespace Script

/-- What stands before the text of a token of a class. -/
def TokenKind.opening : TokenKind → List Char
  | .string => ['"']
  | .bytes => ['b', '"']
  | _ => []

/-- What can stand after the text of a token of a class. -/
def TokenKind.closings : TokenKind → List (List Char)
  | .string | .bytes => [['"']]
  | .imag => [['j'], ['J']]
  | _ => [[]]

/-- Texts of some classes stand bare in the source. -/
def TokenKind.Bare (kind : TokenKind) : Prop :=
  kind.opening = [] ∧ kind.closings = [[]]

namespace Token

/-! ## The front of a source -/

/-- The front of a source is a token of a class with a given text. -/
def Fronts (source : List Char) (found : Lexeme) : Prop :=
  ∃ closing ∈ found.kind.closings,
    source.take found.width = found.kind.opening ++ found.text ++ closing

section Fronts

variable {source : List Char} {found : Lexeme}

/-- A bare text that the source starts with. -/
theorem Fronts.bare {kind : TokenKind} {text : List Char} (hkind : kind.Bare)
    (htext : text <+: source) : Fronts source ⟨kind, text, text.length⟩ := by
  refine ⟨[], by rw [hkind.2]; exact List.mem_singleton_self _, ?_⟩
  rw [hkind.1, List.nil_append, List.append_nil]
  exact (List.prefix_iff_eq_take.mp htext).symm

/-- A text without a character that would end it. -/
theorem take_while_ne_self {c : Char} {text : List Char} (h : c ∉ text) :
    text.takeWhile (· ≠ c) = text := by
  have hfront := take_while_ne h []
  have hprefix := List.takeWhile_prefix (l := text) (· ≠ c)
  rw [List.takeWhile_append] at hfront
  split at hfront
  · rename_i hlength
    exact hprefix.eq_of_length hlength
  · exact hfront

/-- A word stands bare. -/
theorem fronts_word : Fronts source (wordLexeme source) := by
  unfold wordLexeme
  refine .bare ?_ (List.takeWhile_prefix _)
  split <;> exact ⟨rfl, rfl⟩

/-- A number stands bare, or before the letter that makes it imaginary. -/
theorem fronts_number (h : numberLexeme source = .ok found) : Fronts source found := by
  obtain ⟨whole, fractional, after, hcut⟩ := exists_number_cut h
  rw [hcut.source_eq]
  cases hcut.ending with
  | @imaginary c after hc =>
      refine ⟨[c], by obtain rfl | rfl := hc <;> simp [TokenKind.closings], ?_⟩
      exact List.take_length_add_append 1
  | float _ => exact .bare ⟨rfl, rfl⟩ (List.prefix_append _ _)
  | int _ _ _ => exact .bare ⟨rfl, rfl⟩ (List.prefix_append _ _)

/-- Symbols stand bare. -/
theorem symbol_kinds_bare : ∀ kind ∈ symbolKinds, kind.Bare := by
  simp [symbolKinds, TokenKind.Bare, TokenKind.opening, TokenKind.closings]

/-- A symbol stands bare. -/
theorem SymbolOf.fronts {c : Char} (h : SymbolOf c source found) : Fronts (c :: source) found := by
  have hbare := symbol_kinds_bare found.kind h.kind_mem
  cases h with
  | @double d after _ => exact .bare hbare (List.prefix_append [c, d] after)
  | single _ _ => exact .bare hbare (List.prefix_append [c] source)

/-- The token at the front of a source is its text with what its class asks for around it. -/
theorem fronts_lexeme {c : Char} {rest : List Char} (h : lexeme c rest = .ok found) :
    Fronts (c :: rest) found := by
  cases lexeme_iff.mp h with
  | @string body after _ =>
      refine ⟨['"'], List.mem_singleton_self _, ?_⟩
      exact congrArg ('"' :: ·) (List.take_length_add_append 1)
  | @bytes body after _ _ =>
      refine ⟨['"'], List.mem_singleton_self _, ?_⟩
      exact congrArg ('b' :: '"' :: ·) (List.take_length_add_append 1)
  | number _ hnumber => exact fronts_number hnumber
  | word _ _ _ _ => exact fronts_word
  | symbol _ _ _ hsymbol => exact hsymbol.fronts

/-- What the first character passes is not empty. -/
theorem length_take_while_pos {test : Char → Bool} {c : Char} (h : test c = true)
    (rest : List Char) : 0 < ((c :: rest).takeWhile test).length := by
  rw [List.takeWhile_cons_of_pos h]
  exact Nat.succ_pos _

/-- A number that starts with a digit has characters. -/
theorem number_width_pos {c : Char} {rest : List Char} (hdigit : isAsciiDigit c = true)
    (h : numberLexeme (c :: rest) = .ok found) : 0 < found.width := by
  obtain ⟨whole, fractional, after, hcut⟩ := exists_number_cut h
  have hwhole : 0 < whole.length := hcut.whole_eq ▸ length_take_while_pos hdigit rest
  have hdigits : 0 < (pointed whole fractional).length := by
    unfold pointed
    split
    · exact hwhole
    · rw [List.length_append]
      omega
  cases hcut.ending with
  | imaginary _ => exact Nat.succ_pos _
  | float _ => exact hdigits
  | int _ _ _ => exact hdigits

/-- No token is without characters. -/
theorem lexeme_width_pos {c : Char} {rest : List Char} (h : lexeme c rest = .ok found) :
    0 < found.width := by
  cases lexeme_iff.mp h with
  | string _ => exact Nat.succ_pos _
  | bytes _ _ => exact Nat.succ_pos _
  | number hdigit hnumber => exact number_width_pos hdigit hnumber
  | word _ _ _ hstart => exact length_take_while_pos (name_part_of_start hstart) rest
  | symbol _ _ _ hsymbol => cases hsymbol <;> exact Nat.succ_pos _

/-- There are as many line breaks in a token as in its text. -/
theorem Fronts.count_break (h : Fronts source found) :
    (source.take found.width).count '\n' = found.text.count '\n' := by
  obtain ⟨closing, hclosing, htake⟩ := h
  have hopening : found.kind.opening.count '\n' = 0 := by
    cases found.kind <;> decide
  have hclosed : ∀ closing ∈ found.kind.closings, closing.count '\n' = 0 := by
    cases found.kind <;> decide
  rw [htake, List.count_append, List.count_append, hopening, hclosed closing hclosing]
  omega

end Fronts

/-! ## Between tokens -/

/-- What may stand between tokens: blanks, and comments that run to a line break or, if nothing
follows, to the end of the source. -/
inductive Filler (atEnd : Prop) : List Char → Prop where
  | nil : Filler atEnd []
  | blank {c : Char} {rest : List Char} : Text.isBlank c = true → Filler atEnd rest →
      Filler atEnd (c :: rest)
  | comment {body rest : List Char} : '\n' ∉ body → Filler atEnd rest →
      Filler atEnd ('#' :: (body ++ '\n' :: rest))
  | lastComment {body : List Char} : atEnd → '\n' ∉ body → Filler atEnd ('#' :: body)

/-- Every text starts with what may stand between tokens, up to a token or the end. -/
theorem exists_filler (text : List Char) :
    ∃ front after, text = front ++ after ∧ Filler (after = []) front ∧
      ∀ c ∈ after.head?, StartsToken c := by
  -- A comment is left out as a whole, so the induction is on the length.
  induction hlength : text.length using Nat.strongRecOn generalizing text with
  | ind length ih =>
      subst hlength
      cases text with
      | nil => exact ⟨[], [], rfl, .nil, nofun⟩
      | cons c text =>
          by_cases hblank : Text.isBlank c = true
          · obtain ⟨front, after, rfl, hfiller, hstarts⟩ :=
              ih text.length (Nat.lt_succ_self _) text rfl
            exact ⟨c :: front, after, rfl, .blank hblank hfiller, hstarts⟩
          by_cases hcomment : c = '#'
          · subst hcomment
            by_cases hclosed : '\n' ∈ text
            · obtain ⟨body, more, rfl, hbody⟩ := List.eq_append_cons_of_mem hclosed
              obtain ⟨front, after, rfl, hfiller, hstarts⟩ :=
                ih more.length (by simp only [List.length_cons, List.length_append]; omega) more rfl
              exact ⟨'#' :: (body ++ '\n' :: front), after, by simp, .comment hbody hfiller,
                hstarts⟩
            · exact ⟨'#' :: text, [], by simp, .lastComment rfl hclosed, nofun⟩
          · refine ⟨[], c :: text, rfl, .nil, ?_⟩
            rintro _ ⟨rfl⟩
            exact ⟨Bool.eq_false_iff.mpr hblank, hcomment⟩

/-- A blank is left out. -/
theorem tokens_from_blank {c : Char} (h : Text.isBlank c = true) (done : List Token)
    (pos line : Nat) (rest : List Char) :
    tokensFrom done pos line (c :: rest) =
      tokensFrom done (pos + 1) (line + [c].count '\n') rest := by
  rw [tokensFrom]
  split
  · rename_i hbreak
    rw [hbreak]
    rfl
  · rename_i hbreak
    have hcount : [c].count '\n' = 0 := List.count_eq_zero.mpr (by simpa using Ne.symm hbreak)
    rw [hcount]
    rfl

/-- A comment is left out. -/
theorem tokens_from_comment (done : List Token) (pos line : Nat) (rest : List Char) :
    tokensFrom done pos line ('#' :: rest) =
      tokensFrom done (pos + 1 + (rest.takeWhile (· ≠ '\n')).length) line
        (rest.drop (rest.takeWhile (· ≠ '\n')).length) := by
  conv => lhs; rw [tokensFrom]
  rw [if_neg (by decide), if_neg (by decide), if_pos rfl]

/-- What stands between tokens is left out. -/
theorem Filler.tokens_from {front after : List Char} (h : Filler (after = []) front)
    (done : List Token) (pos line : Nat) :
    tokensFrom done pos line (front ++ after) =
      tokensFrom done (pos + front.length) (line + front.count '\n') after := by
  induction h generalizing pos line with
  | nil => rfl
  | @blank c front hblank _ ih =>
      rw [List.cons_append, tokens_from_blank hblank, ih]
      congr 1
      · rw [List.length_cons]
        omega
      · simp only [List.count_cons, List.count_nil]
        omega
  | @comment body front hbody _ ih =>
      have hcount : ('#' :: (body ++ '\n' :: front)).count '\n' = 1 + front.count '\n' := by
        rw [List.count_cons_of_ne (by decide), List.count_append, List.count_eq_zero.mpr hbody,
          List.count_cons_self]
        omega
      rw [hcount, List.cons_append, List.append_assoc, tokens_from_comment, List.cons_append,
        take_while_ne hbody, List.drop_left, tokens_from_blank (by decide), ih]
      congr 1
      · simp only [List.length_cons, List.length_append]
        omega
      · exact Nat.add_assoc line 1 _
  | @lastComment body hend hbody =>
      subst hend
      have hcount : ('#' :: body).count '\n' = 0 := by
        rw [List.count_cons_of_ne (by decide), List.count_eq_zero]
        exact hbody
      rw [List.append_nil, tokens_from_comment, take_while_ne_self hbody, List.drop_length, hcount,
        List.length_cons, Nat.add_assoc, Nat.add_comm 1]
      rfl

/-! ## Rows of tokens -/

/-- The part of a source between two places. -/
def slice (source : String) (start stop : Nat) : List Char :=
  (source.toList.drop start).take (stop - start)

/-- The part of a source between two tokens. -/
def gap (source : String) (token next : Token) : List Char :=
  slice source token.stop next.pos

/-- The number of the line on which a place of a source lies. -/
def lineAt (source : String) (pos : Nat) : Nat :=
  1 + (source.toList.take pos).count '\n'

/-- A token at its place in a source. -/
structure StandsIn (source : String) (token : Token) : Prop where
  le : token.pos ≤ token.stop
  within : token.stop ≤ source.toList.length
  line : token.line = lineAt source token.pos
  fronts : Fronts (source.toList.drop token.pos)
    ⟨token.kind, token.text.toList, token.stop - token.pos⟩

/-- A source has been cut up to a place. -/
structure CutUpTo (source : String) (pos line : Nat) (rest : List Char) : Prop where
  rest : source.toList.drop pos = rest
  within : pos ≤ source.toList.length
  line : line = lineAt source pos

/-- Tokens that stand in a source from a place on, one after the other. -/
structure RowFrom (source : String) (pos : Nat) (tokens : List Token) : Prop where
  stands (t : Token) : t ∈ tokens → StandsIn source t
  after (t : Token) : t ∈ tokens → pos ≤ t.pos
  apart : tokens.Pairwise fun t next => t.stop ≤ next.pos

/-- The token at the end of a source. -/
def endToken (source : String) : Token :=
  ⟨.eof, "", source.length, source.length, lineAt source source.length⟩

/-- A token that is cut off at its place in a source. -/
structure CutAt (source : String) (token : Token) : Prop where
  lt : token.pos < token.stop
  within : token.stop ≤ source.toList.length
  line : token.line = lineAt source token.pos
  lexeme : ∃ c rest, source.toList.drop token.pos = c :: rest ∧ StartsToken c ∧
    Token.lexeme c rest = .ok ⟨token.kind, token.text.toList, token.stop - token.pos⟩

/-- Tokens that are cut off one after the other from a place of a source to its end. -/
inductive Tiles (source : String) : Nat → List Token → Prop where
  | finish {pos : Nat} : pos ≤ (endToken source).pos →
      Filler True (slice source pos (endToken source).pos) → Tiles source pos [endToken source]
  | token {pos : Nat} {token : Token} {rest : List Token} : pos ≤ token.pos →
      Filler False (slice source pos token.pos) → CutAt source token →
      Tiles source token.stop rest → Tiles source pos (token :: rest)

section Rows

variable {source : String} {pos line : Nat} {rest : List Char} {tokens : List Token}

/-- The lines up to a place are those up to an earlier one and the breaks in between. -/
theorem line_at_add_slice {start stop : Nat} (h : start ≤ stop) :
    lineAt source start + (slice source start stop).count '\n' = lineAt source stop := by
  have hsplit : source.toList.take stop = source.toList.take start ++ slice source start stop := by
    rw [slice, ← List.take_add, Nat.add_sub_cancel' h]
  rw [lineAt, lineAt, hsplit, List.count_append]
  omega

/-- The front of what is left is the part of the source up to its end. -/
theorem CutUpTo.slice_front {front : List Char} (h : CutUpTo source pos line (front ++ rest)) :
    slice source pos (pos + front.length) = front := by
  rw [slice, h.rest, Nat.add_sub_cancel_left, List.take_left]

/-- Cutting off the front of what is left. -/
theorem CutUpTo.skip (front : List Char) (h : CutUpTo source pos line (front ++ rest)) :
    CutUpTo source (pos + front.length) (line + front.count '\n') rest := by
  have hlength := congrArg List.length h.rest
  rw [List.length_drop, List.length_append] at hlength
  refine ⟨?_, by have := h.within; omega, ?_⟩
  · rw [← List.drop_drop, h.rest, List.drop_left]
  · rw [h.line, ← line_at_add_slice (Nat.le_add_right pos front.length), h.slice_front]

/-- Leaving out a comment. -/
theorem CutUpTo.comment (h : CutUpTo source pos line ('#' :: rest)) :
    CutUpTo source (pos + 1 + (rest.takeWhile (· ≠ '\n')).length) line
      (rest.drop (rest.takeWhile (· ≠ '\n')).length) := by
  obtain ⟨after, hafter⟩ := List.takeWhile_prefix (l := rest) (· ≠ '\n')
  have hbreak : '\n' ∉ rest.takeWhile (· ≠ '\n') := fun hmem =>
    absurd (of_mem_take_while hmem) (by decide)
  generalize rest.takeWhile (· ≠ '\n') = body at hafter hbreak ⊢
  subst hafter
  have hcount : ('#' :: body).count '\n' = 0 := by
    rw [List.count_cons_of_ne (by decide), List.count_eq_zero]
    exact hbreak
  have hskip := CutUpTo.skip ('#' :: body) h
  rw [hcount, List.length_cons, Nat.add_comm body.length, ← Nat.add_assoc] at hskip
  rw [List.drop_left]
  exact hskip

/-- A row from a later place. -/
theorem RowFrom.earlier {width : Nat} (h : RowFrom source (pos + width) tokens) :
    RowFrom source pos tokens :=
  ⟨h.stands, fun t ht => Nat.le_trans (Nat.le_add_right pos width) (h.after t ht), h.apart⟩

/-- A token before a row. -/
theorem RowFrom.cons {token : Token} (htoken : StandsIn source token)
    (h : RowFrom source token.stop tokens) : RowFrom source token.pos (token :: tokens) where
  stands := List.forall_mem_cons.mpr ⟨htoken, h.stands⟩
  after := List.forall_mem_cons.mpr
    ⟨Nat.le_refl _, fun t ht => Nat.le_trans htoken.le (h.after t ht)⟩
  apart := List.pairwise_cons.mpr ⟨h.after, h.apart⟩

/-- Nothing is left at the end of a source only. -/
theorem CutUpTo.pos_eq (h : CutUpTo source pos line []) : pos = source.length := by
  have hlength := congrArg List.length h.rest
  have hwithin := h.within
  rw [List.length_drop, List.length_nil] at hlength
  rw [String.length_toList] at hlength hwithin
  omega

/-- Cutting off a token. -/
theorem CutUpTo.token {c : Char} {found : Lexeme} (h : CutUpTo source pos line (c :: rest))
    (hstarts : StartsToken c) (hfound : lexeme c rest = .ok found) :
    CutAt source ⟨found.kind, String.ofList found.text, pos, pos + found.width, line⟩ ∧
      CutUpTo source (pos + found.width) (line + found.text.count '\n')
        (rest.drop (found.width - 1)) := by
  have hfronts := fronts_lexeme hfound
  have hpos := lexeme_width_pos hfound
  obtain ⟨-, hwidth, -⟩ := lexeme_break [] hfound
  have hlength : ((c :: rest).take found.width).length = found.width := by
    rw [List.length_take, List.length_cons]
    exact Nat.min_eq_left hwidth
  have hdrop : (c :: rest).drop found.width = rest.drop (found.width - 1) := by
    rw [← Nat.succ_pred_eq_of_pos hpos]
    rfl
  have hskip : CutUpTo source (pos + found.width) (line + found.text.count '\n')
      (rest.drop (found.width - 1)) := by
    have hcut := h
    rw [← List.take_append_drop found.width (c :: rest), hdrop] at hcut
    have hskip := CutUpTo.skip _ hcut
    rw [hlength, hfronts.count_break] at hskip
    exact hskip
  refine ⟨⟨Nat.lt_add_of_pos_right hpos, hskip.within, h.line, c, rest, h.rest, hstarts, ?_⟩, hskip⟩
  rw [hfound, String.toList_ofList, Nat.add_sub_cancel_left]

/-- The rest of a source is cut into tokens that cover it. -/
theorem tiles_of_tokens_from {done : List Token}
    (h : tokensFrom done pos line rest = .ok tokens) (hcut : CutUpTo source pos line rest) :
    ∃ cut, tokens = done.reverse ++ cut ∧ Tiles source pos cut := by
  -- One round is a gap and the token after it, and no token is without characters.
  induction hlength : rest.length using Nat.strongRecOn generalizing done pos line rest with
  | ind length ih =>
      subst hlength
      obtain ⟨front, after, rfl, hfiller, hstarts⟩ := exists_filler rest
      have hslice := hcut.slice_front
      have hskip := CutUpTo.skip front hcut
      rw [hfiller.tokens_from] at h
      cases after with
      | nil =>
          rw [tokensFrom] at h
          obtain rfl := Except.ok.inj h
          have hend := hskip.pos_eq
          rw [hskip.line, hend]
          rw [hend] at hslice
          refine ⟨_, rfl, .finish (Nat.le_trans hcut.within (Nat.le_of_eq String.length_toList)) ?_⟩
          show Filler True (slice source pos source.length)
          rw [hslice, ← eq_true (rfl : ([] : List Char) = [])]
          exact hfiller
      | cons c after =>
          have hc := hstarts c rfl
          cases hfound : lexeme c after with
          | error fault =>
              obtain ⟨fault, offset⟩ := fault
              rw [tokens_from_fault hc hfound] at h
              cases h
          | ok found =>
              rw [tokens_from_found hc hfound] at h
              obtain ⟨htoken, hmore⟩ := hskip.token hc hfound
              obtain ⟨cut, rfl, htiles⟩ := ih _ (by simp; omega) h hmore rfl
              refine ⟨_ :: cut, by rw [List.reverse_cons, List.append_assoc]; rfl,
                .token (Nat.le_add_right pos front.length) ?_ htoken htiles⟩
              rw [hslice, ← eq_false (List.cons_ne_nil c after)]
              exact hfiller

/-- A token that is cut off stands in the source. -/
theorem CutAt.stands {token : Token} (h : CutAt source token) : StandsIn source token := by
  obtain ⟨c, rest, hrest, -, hlexeme⟩ := h.lexeme
  refine ⟨Nat.le_of_lt h.lt, h.within, h.line, ?_⟩
  rw [hrest]
  exact fronts_lexeme hlexeme

/-- A token that is cut off is not the end of the source. -/
theorem CutAt.kind_ne_eof {token : Token} (h : CutAt source token) : token.kind ≠ .eof := by
  obtain ⟨c, rest, -, -, hlexeme⟩ := h.lexeme
  exact (lexeme_break [] hlexeme).2.2

/-- The end of a source stands in it. -/
theorem stands_end : StandsIn source (endToken source) := by
  refine ⟨Nat.le_refl _, Nat.le_of_eq String.length_toList.symm, rfl, [],
    List.mem_singleton_self _, ?_⟩
  show List.take (source.length - source.length) _ = []
  rw [Nat.sub_self, List.take_zero]

/-- The tokens of the rest of a source stand in the source, one after the other. -/
theorem Tiles.row (h : Tiles source pos tokens) : RowFrom source pos tokens := by
  induction h with
  | @finish pos hpos hfiller =>
      have hrow : RowFrom source (endToken source).pos [endToken source] :=
        .cons stands_end ⟨nofun, nofun, .nil⟩
      obtain ⟨width, hwidth⟩ := Nat.exists_eq_add_of_le hpos
      rw [hwidth] at hrow
      exact hrow.earlier
  | @token pos token rest hpos _ htoken _ ih =>
      have hrow := RowFrom.cons htoken.stands ih
      obtain ⟨width, hwidth⟩ := Nat.exists_eq_add_of_le hpos
      rw [hwidth] at hrow
      exact hrow.earlier

/-- More may stand between tokens where a comment may end the source. -/
theorem Filler.mono {atEnd atEnd' : Prop} (himp : atEnd → atEnd') {text : List Char}
    (h : Filler atEnd text) : Filler atEnd' text := by
  induction h with
  | nil => exact .nil
  | blank hblank _ ih => exact .blank hblank ih
  | comment hbody _ ih => exact .comment hbody ih
  | lastComment hend hbody => exact .lastComment (himp hend) hbody

/-- What stands before the first of the tokens. -/
theorem Tiles.head (h : Tiles source pos tokens) :
    ∃ first more, tokens = first :: more ∧ pos ≤ first.pos ∧
      Filler (first.kind = .eof) (slice source pos first.pos) := by
  cases h with
  | finish hpos hfiller =>
      exact ⟨_, _, rfl, hpos, hfiller.mono fun _ => rfl⟩
  | token hpos hfiller _ _ => exact ⟨_, _, rfl, hpos, hfiller.mono False.elim⟩

/-- What stands between two tokens that follow each other. -/
theorem Tiles.neighbours (h : Tiles source pos tokens) {i : Nat} (hi : i + 1 < tokens.length) :
    tokens[i].pos < tokens[i].stop ∧ tokens[i].stop ≤ tokens[i + 1].pos ∧
      Filler (tokens[i + 1].kind = .eof) (gap source tokens[i] tokens[i + 1]) := by
  induction h generalizing i with
  | finish _ _ => exact absurd (show i + 1 < 1 from hi) (by omega)
  | @token pos token rest _ _ htoken htiles ih =>
      cases i with
      | zero =>
          obtain ⟨first, more, rfl, hpos, hfiller⟩ := htiles.head
          exact ⟨htoken.lt, hpos, hfiller⟩
      | succ i => exact ih (Nat.lt_of_succ_lt_succ hi)

/-- The end of the source is the last of the tokens and no other. -/
theorem Tiles.exists_cut (h : Tiles source pos tokens) :
    ∃ cut, tokens = cut ++ [endToken source] ∧ ∀ t ∈ cut, CutAt source t := by
  induction h with
  | finish _ _ => exact ⟨[], rfl, nofun⟩
  | @token pos token rest _ _ htoken _ ih =>
      obtain ⟨cut, rfl, hcut⟩ := ih
      exact ⟨token :: cut, rfl, List.forall_mem_cons.mpr ⟨htoken, hcut⟩⟩

/-- The tokens of a source cover it. -/
theorem tiles_of_tokenize (h : tokenize source = .ok tokens) : Tiles source 0 tokens := by
  obtain ⟨cut, rfl, htiles⟩ := tiles_of_tokens_from h ⟨rfl, Nat.zero_le _, rfl⟩
  exact htiles

/-- The tokens of a source stand in the source, one after the other. -/
theorem row_of_tokenize (h : tokenize source = .ok tokens) : RowFrom source 0 tokens :=
  (tiles_of_tokenize h).row

/-- The line on which a token starts is told by the token before it: by the line breaks in the text
of that token and those in the gap between them. -/
theorem next_line_eq {token next : Token} (htoken : StandsIn source token)
    (hnext : StandsIn source next) (hapart : token.stop ≤ next.pos) :
    next.line = token.line + token.text.toList.count '\n' +
      (gap source token next).count '\n' := by
  have hbreaks : (slice source token.pos token.stop).count '\n' =
      token.text.toList.count '\n' := htoken.fronts.count_break
  rw [hnext.line, ← line_at_add_slice hapart, ← line_at_add_slice htoken.le, ← htoken.line,
    hbreaks]
  rfl

/-- A token starts on the line of the token before it if there is no line break in the text of that
token and none in the gap between them. -/
theorem RowFrom.line_iff (h : RowFrom source pos tokens) {i : Nat} (hi : i + 1 < tokens.length) :
    tokens[i + 1].line = tokens[i].line ↔
      '\n' ∉ tokens[i].text.toList ∧ '\n' ∉ gap source tokens[i] tokens[i + 1] := by
  have hapart := List.pairwise_iff_getElem.mp h.apart i (i + 1) (by omega) hi (Nat.lt_succ_self i)
  rw [next_line_eq (h.stands _ (List.getElem_mem _)) (h.stands _ (List.getElem_mem _)) hapart,
    ← List.count_eq_zero, ← List.count_eq_zero]
  omega

/-- Tokens cover a source: they are the parts of the source between blanks and comments. -/
structure Covers (source : String) (tokens : List Token) : Prop where
  /-- The last token, and no other, is the end of the source. -/
  ending : ∃ cut, tokens = cut ++ [endToken source] ∧ ∀ t ∈ cut, t.kind ≠ .eof
  /-- Every token before it has characters and stops where the next starts or earlier. -/
  apart (i : Nat) (hi : i + 1 < tokens.length) :
    tokens[i].pos < tokens[i].stop ∧ tokens[i].stop ≤ tokens[i + 1].pos
  /-- Nothing but blanks and comments stands before the first token. -/
  lead (h : 0 < tokens.length) : Filler (tokens[0].kind = .eof) (slice source 0 tokens[0].pos)
  /-- Nothing but blanks and comments stands between two tokens. -/
  gaps (i : Nat) (hi : i + 1 < tokens.length) :
    Filler (tokens[i + 1].kind = .eof) (gap source tokens[i] tokens[i + 1])
  /-- The text of a token is its part of the source without what its class asks for around it. -/
  text (t : Token) : t ∈ tokens → ∃ closing ∈ t.kind.closings,
    slice source t.pos t.stop = t.kind.opening ++ t.text.toList ++ closing
  /-- The line of a token is told by the line breaks before it. -/
  line (t : Token) : t ∈ tokens → t.line = lineAt source t.pos

/-- A source that is cut into tokens is covered by them. -/
theorem tokenize_covers (h : tokenize source = .ok tokens) : Covers source tokens := by
  have htiles := tiles_of_tokenize h
  have hrow := htiles.row
  obtain ⟨first, more, rfl, -, hlead⟩ := htiles.head
  obtain ⟨cut, hcut, hkinds⟩ := htiles.exists_cut
  exact {
    ending := ⟨cut, hcut, fun t ht => (hkinds t ht).kind_ne_eof⟩
    apart i hi := ⟨(htiles.neighbours hi).1, (htiles.neighbours hi).2.1⟩
    lead _ := hlead
    gaps i hi := (htiles.neighbours hi).2.2
    text t ht := (hrow.stands t ht).fronts
    line t ht := (hrow.stands t ht).line }

/-- Bytes with a line break between an indented number and a comment that ends the source. -/
theorem tokenize_covers_comment :
    let source := " 2.5j b\"x\ny\"# end"
    let tokens : List Token :=
      [⟨.imag, "2.5", 1, 5, 1⟩, ⟨.bytes, "x\ny", 6, 12, 1⟩, ⟨.eof, "", 17, 17, 2⟩]
    tokenize source = .ok tokens ∧ Covers source tokens := by
  intro source tokens
  have htokens : tokenize source = .ok tokens := by decide +kernel
  exact ⟨htokens, tokenize_covers htokens⟩

end Rows

end Token

end Script
