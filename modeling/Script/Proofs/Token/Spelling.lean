import Mathlib.Data.List.Forall2
import Script.Proofs.Number.Digits
import Script.Proofs.Token.Lexemes

/-!
# Tokens with spaces between them

A `Piece` is what a token is without its place. Pieces that are written with single spaces between
them are cut into these pieces again, all on the first line, if each of them is cut off whole when
a space or the end of the source follows: `tokenize_joined`. Words, numbers, operators and
punctuation marks are.
-/

namespace Script

/-- The class and the text of a token. -/
structure Piece where
  kind : TokenKind
  text : String
  deriving DecidableEq, Repr

/-- The class and the text of a token. -/
def Token.piece (token : Token) : Piece :=
  ⟨token.kind, token.text⟩

/-- A character with which neither a blank nor a comment starts. -/
structure Token.StartsToken (c : Char) : Prop where
  solid : Text.isBlank c = false
  noComment : c ≠ '#'

namespace Piece

/-- Pieces written one after the other with single spaces between them. -/
def joined (pieces : List Piece) : String :=
  " ".intercalate (pieces.map (·.text))

/-- The token is this piece on the first line. -/
structure Fits (piece : Piece) (token : Token) : Prop where
  kind : token.kind = piece.kind
  text : token.text = piece.text
  line : token.line = 1

/-- The piece that closes every row of tokens. -/
def ending : Piece :=
  ⟨.eof, ""⟩

/-- The text is over, or a space follows. -/
def Parted (after : List Char) : Prop :=
  after = [] ∨ ∃ rest, after = ' ' :: rest

/-- What is written is cut off the front of a source whole, as this piece. -/
def Spelled (piece : Piece) (written : List Char) : Prop :=
  ∃ c rest, written = c :: rest ∧ Token.StartsToken c ∧ ∀ after, Parted after →
    Token.lexeme c (rest ++ after) = .ok ⟨piece.kind, piece.text.toList, rest.length + 1⟩

/-- The piece is cut off the front of a source whole. -/
structure Cut (piece : Piece) (c : Char) (rest : List Char) : Prop where
  text : piece.text.toList = c :: rest
  solid : Text.isBlank c = false
  noComment : c ≠ '#'
  oneLine : (c :: rest).count '\n' = 0
  lexeme (after : List Char) : Parted after →
    Token.lexeme c (rest ++ after) = .ok ⟨piece.kind, c :: rest, rest.length + 1⟩

/-- The piece can be written where a space or the end of the source follows. -/
def Writable (piece : Piece) : Prop :=
  ∃ c rest, piece.Cut c rest

/-- Such a piece is written as its text, on one line. -/
theorem Writable.spelled {piece : Piece} (h : piece.Writable) :
    piece.Spelled piece.text.toList ∧ '\n' ∉ piece.text.toList := by
  obtain ⟨c, rest, hcut⟩ := h
  refine ⟨⟨c, rest, hcut.text, ⟨hcut.solid, hcut.noComment⟩, ?_⟩, ?_⟩
  · rw [hcut.text]
    exact hcut.lexeme
  · rw [hcut.text]
    exact List.count_eq_zero.mp hcut.oneLine

end Piece

namespace Token

open Piece

/-- What starts a token is no blank, and so no line break. -/
theorem StartsToken.not_blank {c : Char} (h : StartsToken c) : ¬Text.isBlank c = true :=
  Bool.eq_false_iff.mp h.solid

theorem StartsToken.ne_break {c : Char} (h : StartsToken c) : c ≠ '\n' := by
  rintro rfl
  exact h.not_blank (by decide)

/-- Cutting off a token. -/
theorem tokens_from_found {c : Char} {rest : List Char} {found : Lexeme} (hstarts : StartsToken c)
    (h : lexeme c rest = .ok found) (done : List Token) (pos line : Nat) :
    tokensFrom done pos line (c :: rest) =
      tokensFrom (⟨found.kind, String.ofList found.text, pos, pos + found.width, line⟩ :: done)
        (pos + found.width) (line + found.text.count '\n') (rest.drop (found.width - 1)) := by
  rw [tokensFrom, if_neg hstarts.ne_break, if_neg hstarts.not_blank, if_neg hstarts.noComment, h]

/-- No token is cut off. -/
theorem tokens_from_fault {c : Char} {rest : List Char} {fault : LexFault} {offset : Nat}
    (hstarts : StartsToken c) (h : lexeme c rest = .error (fault, offset)) (done : List Token)
    (pos line : Nat) :
    tokensFrom done pos line (c :: rest) = .error ⟨fault, pos + offset⟩ := by
  rw [tokensFrom, if_neg hstarts.ne_break, if_neg hstarts.not_blank, if_neg hstarts.noComment, h]

/-- Cutting off one piece. -/
theorem tokens_from_spelled {piece : Piece} {written after : List Char}
    (h : piece.Spelled written) (hafter : Parted after) (done : List Token) (pos line : Nat) :
    tokensFrom done pos line (written ++ after) =
      tokensFrom (⟨piece.kind, piece.text, pos, pos + written.length, line⟩ :: done)
        (pos + written.length) (line + piece.text.toList.count '\n') after := by
  obtain ⟨c, rest, rfl, hstarts, hlexeme⟩ := h
  have hdrop : (rest ++ after).drop (rest.length + 1 - 1) = after := by
    rw [Nat.add_sub_cancel, List.drop_left]
  rw [List.cons_append, tokens_from_found hstarts (hlexeme after hafter)]
  dsimp only
  rw [String.ofList_toList, hdrop]
  rfl

/-- Leaving a space out. -/
theorem tokens_from_space (done : List Token) (pos line : Nat) (rest : List Char) :
    tokensFrom done pos line (' ' :: rest) = tokensFrom done (pos + 1) line rest := by
  rw [tokensFrom, if_neg (by decide), if_pos (by decide)]

/-- What is written with single spaces between is cut into the pieces that it spells, all on one
line if no text holds a line break. -/
theorem tokens_from_parted {pieces : List Piece} {written : List (List Char)}
    (h : List.Forall₂ Spelled pieces written) (done : List Token) (pos line : Nat) :
    ∃ tokens,
      tokensFrom done pos line ([' '].intercalate written) = .ok (done.reverse ++ tokens) ∧
      tokens.map piece = pieces ++ [ending] ∧
      ((∀ piece ∈ pieces, '\n' ∉ piece.text.toList) → ∀ t ∈ tokens, t.line = line) := by
  induction h generalizing done pos line with
  | nil =>
      refine ⟨[⟨.eof, "", pos, pos, line⟩], ?_, rfl, fun _ => by simp⟩
      rw [List.intercalate_nil, tokensFrom]
  | @cons piece front pieces written hpiece hpieces ih =>
      let token : Token := ⟨piece.kind, piece.text, pos, pos + front.length, line⟩
      -- The last piece has no space after it.
      obtain ⟨after, skipped, hafter, hfront, hskip⟩ : ∃ after skipped, Parted after ∧
          [' '].intercalate (front :: written) = front ++ after ∧
          ∀ done pos line, tokensFrom done pos line after =
            tokensFrom done (pos + skipped) line ([' '].intercalate written) := by
        cases written with
        | nil =>
            refine ⟨[], 0, .inl rfl, ?_, fun _ _ _ => rfl⟩
            rw [List.intercalate_singleton, List.append_nil]
        | cons next written =>
            refine ⟨_, 1, .inr ⟨_, rfl⟩, ?_, fun _ _ _ => tokens_from_space _ _ _ _⟩
            rw [List.intercalate_cons_cons, List.append_assoc, List.singleton_append]
      obtain ⟨tokens, htokens, hmap, hlines⟩ := ih (token :: done)
        (pos + front.length + skipped) (line + piece.text.toList.count '\n')
      refine ⟨token :: tokens, ?_, congrArg (piece :: ·) hmap, fun hbreaks => ?_⟩
      · rw [hfront, tokens_from_spelled hpiece hafter, hskip, htokens, List.reverse_cons,
          List.append_assoc]
        rfl
      · obtain ⟨hbreak, hbreaks⟩ := List.forall_mem_cons.mp hbreaks
        rw [List.count_eq_zero.mpr hbreak] at hlines
        exact List.forall_mem_cons.mpr ⟨rfl, hlines hbreaks⟩

/-- A row of pieces is read as tokens that fit it, closed by the end of the source. -/
theorem tokenize_joined {pieces : List Piece} (h : ∀ piece ∈ pieces, piece.Writable) :
    ∃ tokens, tokenize (joined pieces) = .ok tokens ∧
      List.Forall₂ Fits (pieces ++ [ending]) tokens := by
  have hspelled : List.Forall₂ Spelled pieces (pieces.map (·.text.toList)) :=
    List.forall₂_map_right_iff.mpr (List.forall₂_same.mpr fun piece hpiece =>
      (h piece hpiece).spelled.1)
  obtain ⟨tokens, htokens, hmap, hlines⟩ := tokens_from_parted hspelled [] 0 1
  have hline := hlines fun piece hpiece => (h piece hpiece).spelled.2
  refine ⟨tokens, ?_, ?_⟩
  · unfold tokenize joined
    rw [String.toList_intercalate, List.map_map]
    exact htokens
  · rw [← hmap]
    exact List.forall₂_map_left_iff.mpr (List.forall₂_same.mpr fun t ht => ⟨rfl, rfl, hline t ht⟩)

end Token

/-! ## Words -/

/-- Two tables have no code point in common if their intervals do not meet. -/
theorem Text.Interval.not_mem_of_apart {first second : List Interval} {n : Nat}
    (hapart : (first.all fun a => second.all fun b => a.2 < b.1 || b.2 < a.1) = true)
    (h : mem first n = true) : mem second n = false := by
  obtain ⟨a, ha, hfirst⟩ := List.any_eq_true.mp h
  refine List.any_eq_false.mpr fun b hb hsecond => ?_
  have hab := List.all_eq_true.mp (List.all_eq_true.mp hapart a ha) b hb
  simp only [Bool.and_eq_true, Bool.or_eq_true, decide_eq_true_eq] at hfirst hsecond hab
  omega

/-- What passes a test ends where a space or the end of the source follows. -/
theorem Piece.Parted.take_while {after : List Char} (hafter : Parted after) {test : Char → Bool}
    (hspace : test ' ' = false) {front : List Char} (hfront : ∀ c ∈ front, test c = true) :
    (front ++ after).takeWhile test = front := by
  rw [List.takeWhile_append_of_pos hfront]
  rcases hafter with rfl | ⟨rest, rfl⟩
  · rw [List.takeWhile_nil, List.append_nil]
  · rw [List.takeWhile_cons_of_neg (by rw [hspace]; decide), List.append_nil]

namespace Token

/-- The text starts and goes on as a name does. -/
def isWord (text : String) : Bool :=
  match text.toList with
  | [] => false
  | c :: rest => isNameStart c && rest.all isNamePart

/-- An ASCII character that starts a name starts nothing else. -/
theorem ascii_name_start :
    ∀ n < 128, isNameStart (Char.ofNat n) = true →
      Text.isBlank (Char.ofNat n) = false ∧ Char.ofNat n ≠ '#' ∧ Char.ofNat n ≠ '"' ∧
        isAsciiDigit (Char.ofNat n) = false := by
  decide

/-- A character that starts a name starts nothing else. -/
theorem name_start_spec {c : Char} (h : isNameStart c = true) :
    Text.isBlank c = false ∧ c ≠ '#' ∧ c ≠ '"' ∧ isAsciiDigit c = false := by
  by_cases hascii : c.toNat < 128
  · have hspec := ascii_name_start c.toNat hascii
    rw [Char.ofNat_toNat] at hspec
    exact hspec h
  · -- Beyond ASCII, the table of letters is compared with that of blanks.
    have hletter : Text.Interval.mem Text.letterIntervals c.toNat = true := by
      have hunderscore : c ≠ '_' := by
        rintro rfl
        exact hascii (by decide)
      simpa [isNameStart, hunderscore, Text.isLetter, hascii] using h
    have hblank : Text.isBlank c = false :=
      Text.Interval.not_mem_of_apart (by decide +kernel) hletter
    refine ⟨hblank, ?_, ?_, ?_⟩
    · rintro rfl
      exact hascii (by decide)
    · rintro rfl
      exact hascii (by decide)
    · refine Bool.and_eq_false_iff.mpr (.inr (decide_eq_false fun hle => hascii ?_))
      have hnine : c.toNat ≤ 57 := UInt32.le_iff_toNat_le.mp (Char.le_def.mp hle)
      omega

/-- What starts a name can also stand within one. -/
theorem name_part_of_start {c : Char} (h : isNameStart c = true) : isNamePart c = true := by
  unfold isNameStart at h
  unfold isNamePart Text.isAlphanumeric
  grind

/-- A word as a piece: a keyword or a name. -/
def wordPiece (text : String) : Piece :=
  ⟨if keywords.contains text then .keyword else .name, text⟩

/-- Words are cut off whole. -/
theorem writable_word {text : String} (h : isWord text = true) : (wordPiece text).Writable := by
  unfold isWord at h
  split at h
  · cases h
  rename_i c rest htext
  obtain ⟨hstart, hrest⟩ := Bool.and_eq_true_iff.mp h
  rw [List.all_eq_true] at hrest
  obtain ⟨hblank, hcomment, hquote, hdigit⟩ := name_start_spec hstart
  have hall : ∀ d ∈ c :: rest, isNamePart d = true :=
    List.forall_mem_cons.mpr ⟨name_part_of_start hstart, hrest⟩
  refine ⟨c, rest, htext, hblank, hcomment, ?_, fun after hafter => ?_⟩
  · refine List.count_eq_zero.mpr fun hmem => ?_
    exact absurd (hall '\n' hmem) (by decide)
  · -- A `b` before a quotation mark would start bytes.
    have hbytes : ¬ (c = 'b' ∧ (rest ++ after).head? = some '"') := by
      rintro ⟨-, hhead⟩
      cases rest with
      | nil => rcases hafter with rfl | ⟨rest, rfl⟩ <;> cases hhead
      | cons d rest =>
          cases hhead
          exact absurd (hrest '"' List.mem_cons_self) (by decide)
    have hword : (c :: (rest ++ after)).takeWhile isNamePart = c :: rest :=
      hafter.take_while (by decide) hall
    have hsame : String.ofList (c :: rest) = text := by
      rw [← htext, String.ofList_toList]
    rw [lexeme_iff.mpr (.word hquote hbytes hdigit hstart)]
    unfold wordLexeme
    dsimp only
    rw [hword, hsame]
    rfl

/-! ## Numbers -/

/-- A number as a piece. -/
def numberPiece (n : Nat) : Piece :=
  ⟨.int, Number.decimalText n⟩

/-- None of the ten digits is a blank or starts a comment. -/
theorem ascii_digit :
    ∀ n < 58, isAsciiDigit (Char.ofNat n) = true →
      Text.isBlank (Char.ofNat n) = false ∧ Char.ofNat n ≠ '#' := by
  decide

/-- A digit is no blank and starts no comment. -/
theorem digit_spec {c : Char} (h : isAsciiDigit c = true) : Text.isBlank c = false ∧ c ≠ '#' := by
  have hle : c ≤ '9' := of_decide_eq_true (Bool.and_eq_true_iff.mp h).2
  have hnine : c.toNat ≤ 57 := UInt32.le_iff_toNat_le.mp (Char.le_def.mp hle)
  have hspec := ascii_digit c.toNat (by omega)
  rw [Char.ofNat_toNat] at hspec
  exact hspec h

section Digits

variable {whole fractional after : List Char} (hafter : Piece.Parted after)
  (hwhole : ∀ c ∈ whole, isAsciiDigit c = true)
  (hfractional : ∀ c ∈ fractional, isAsciiDigit c = true)

include hwhole hfractional

/-- The digits of a number are told apart from what follows if that goes on neither with a digit
nor with a point. -/
theorem digits_of_pointed (rest : List Char)
    (hrest : ∀ c ∈ rest.head?, isAsciiDigit c = false ∧ c ≠ '.') :
    (pointed whole fractional ++ rest).takeWhile isAsciiDigit = whole ∧
      fraction ((pointed whole fractional ++ rest).drop whole.length) = fractional := by
  have hstop : rest.takeWhile isAsciiDigit = [] := by
    cases rest with
    | nil => rfl
    | cons c rest => rw [List.takeWhile_cons_of_neg (by rw [(hrest c rfl).1]; decide)]
  cases fractional with
  | nil =>
      show (whole ++ rest).takeWhile isAsciiDigit = whole ∧
        fraction ((whole ++ rest).drop whole.length) = []
      rw [List.takeWhile_append_of_pos hwhole, hstop, List.append_nil, List.drop_left]
      refine ⟨rfl, ?_⟩
      cases rest with
      | nil => rfl
      | cons c rest => exact fraction_of_ne (hrest c rfl).2 rest
  | cons d fractional =>
      show (whole ++ '.' :: (d :: fractional) ++ rest).takeWhile isAsciiDigit = whole ∧
        fraction ((whole ++ '.' :: (d :: fractional) ++ rest).drop whole.length) = d :: fractional
      rw [List.append_assoc, List.takeWhile_append_of_pos hwhole, List.drop_left]
      refine ⟨List.append_nil whole, ?_⟩
      show ((d :: fractional) ++ rest).takeWhile isAsciiDigit = d :: fractional
      rw [List.takeWhile_append_of_pos hfractional, hstop, List.append_nil]

include hafter

/-- An imaginary number is cut off whole. -/
theorem number_lexeme_imaginary {c : Char} (hc : c = 'j' ∨ c = 'J') :
    numberLexeme (pointed whole fractional ++ c :: after) =
      .ok ⟨.imag, pointed whole fractional, (pointed whole fractional).length + 1⟩ := by
  obtain ⟨htake, hfraction⟩ := digits_of_pointed hwhole hfractional (c :: after) (by
    rintro _ ⟨rfl⟩
    obtain rfl | rfl := hc <;> decide)
  have himaginary : (decide (some c = some 'j') || decide (some c = some 'J')) = true := by
    obtain rfl | rfl := hc <;> rfl
  have hname : after.head?.any isNamePart = false := by
    rcases hafter with rfl | ⟨rest, rfl⟩ <;> rfl
  unfold numberLexeme
  dsimp only
  rw [htake, hfraction, ← pointed, List.drop_left, List.head?_cons, himaginary]
  simp only [if_true, List.drop_length_add_append, List.drop_one, List.tail_cons, hname,
    Bool.false_eq_true, if_false]

/-- A number that is not imaginary is cut off whole, if it is one. -/
theorem number_lexeme_real :
    numberLexeme (pointed whole fractional ++ after) =
      let digits := pointed whole fractional
      if !fractional.isEmpty then .ok ⟨.float, digits, digits.length⟩
      else if Number.maxTextDigits < digits.length then
        .error (.invalidNumber (String.ofList digits))
      else if integerBound ≤ Number.ofDigits digits then
        .error (.integerOutOfRange (String.ofList digits))
      else .ok ⟨.int, digits, digits.length⟩ := by
  obtain ⟨htake, hfraction⟩ := digits_of_pointed hwhole hfractional after (by
    rcases hafter with rfl | ⟨rest, rfl⟩ <;> simp [isAsciiDigit])
  have himaginary :
      (decide (after.head? = some 'j') || decide (after.head? = some 'J')) = false := by
    rcases hafter with rfl | ⟨rest, rfl⟩ <;> rfl
  have hname : after.head?.any isNamePart = false := by
    rcases hafter with rfl | ⟨rest, rfl⟩ <;> rfl
  unfold numberLexeme
  dsimp only
  rw [htake, hfraction, ← pointed, List.drop_left, himaginary]
  simp only [Bool.false_eq_true, if_false, Nat.add_zero, List.drop_left, hname]

end Digits

/-- Digits that are few and write a number of 64 bits are cut off whole. -/
theorem number_lexeme_digits {digits after : List Char} (hafter : Piece.Parted after)
    (hall : ∀ c ∈ digits, isAsciiDigit c = true)
    (hlength : digits.length ≤ Number.maxTextDigits)
    (hbound : Number.ofDigits digits < integerBound) :
    numberLexeme (digits ++ after) = .ok ⟨.int, digits, digits.length⟩ := by
  have hreal : numberLexeme (pointed digits [] ++ after) = _ :=
    number_lexeme_real hafter hall nofun
  rw [show pointed digits [] = digits from rfl] at hreal
  rw [hreal]
  simp only [List.isEmpty_nil, Bool.not_true, Bool.false_eq_true, if_false]
  rw [if_neg (by omega), if_neg (by omega)]

/-- Numbers are cut off whole if they fit in 64 bits. -/
theorem writable_number {n : Nat} (h : n < integerBound) : (numberPiece n).Writable := by
  obtain ⟨c, rest, hdigits⟩ := List.exists_cons_of_ne_nil (Number.decimal_digits_ne_nil n)
  have hall : ∀ d ∈ c :: rest, isAsciiDigit d = true := hdigits ▸ Number.all_digits n
  have hfirst : isAsciiDigit c = true := hall c List.mem_cons_self
  obtain ⟨hblank, hcomment⟩ := digit_spec hfirst
  refine ⟨c, rest, ?_, hblank, hcomment, ?_, fun after hafter => ?_⟩
  · rw [← hdigits]
    exact String.toList_ofList
  · refine List.count_eq_zero.mpr fun hmem => ?_
    exact absurd (hall '\n' hmem) (by decide)
  · have hlength : (Number.decimalDigits n).length ≤ Number.maxTextDigits := by
      have hsmall : n < 10 ^ (18 + 1) := Nat.lt_of_lt_of_le h (by decide)
      have hfew := Number.length_decimal_digits_le hsmall
      exact Nat.le_trans hfew (by decide)
    have hbound : Number.ofDigits (Number.decimalDigits n) < integerBound := by
      rw [Number.of_digits_decimal_digits]
      exact h
    rw [hdigits] at hlength hbound
    have hnumber := number_lexeme_digits hafter hall hlength hbound
    rw [List.cons_append] at hnumber
    exact lexeme_iff.mpr (.number hfirst hnumber)

/-! ## Symbols -/

/-- The piece is an operator or a punctuation mark that stays itself in front of a space. -/
def isSymbol (piece : Piece) : Bool :=
  match piece.text.toList with
  | [] => false
  | c :: rest =>
    let whole : Except LexFault Lexeme := .ok ⟨piece.kind, c :: rest, rest.length + 1⟩
    !Text.isBlank c && c ≠ '#' && c ≠ '"' && c ≠ 'b' && !isAsciiDigit c && !isNameStart c &&
      (c :: rest).count '\n' = 0 && symbolLexeme c rest = whole &&
      symbolLexeme c (rest ++ [' ']) = whole

/-- Only the next character decides what a symbol is. -/
theorem symbol_lexeme_parted (c : Char) (rest : List Char) {after : List Char}
    (h : Piece.Parted after) :
    symbolLexeme c (rest ++ after) = symbolLexeme c rest ∨
      symbolLexeme c (rest ++ after) = symbolLexeme c (rest ++ [' ']) := by
  rcases h with rfl | ⟨after, rfl⟩
  · exact .inl (by rw [List.append_nil])
  · refine .inr ?_
    have htake : (rest ++ ' ' :: after).take 1 = (rest ++ [' ']).take 1 := by
      cases rest <;> rfl
    unfold symbolLexeme
    rw [htake]

/-- Symbols are cut off whole. -/
theorem writable_symbol {piece : Piece} (h : isSymbol piece = true) : piece.Writable := by
  unfold isSymbol at h
  split at h
  · cases h
  · rename_i c rest htext
    simp only [Bool.and_eq_true, Bool.not_eq_true', decide_eq_true_eq, ne_eq] at h
    obtain ⟨⟨⟨⟨⟨⟨⟨⟨hblank, hcomment⟩, hquote⟩, -⟩, hdigit⟩, hstart⟩, hline⟩, hend⟩,
      hspace⟩ := h
    refine ⟨c, rest, htext, hblank, hcomment, hline, fun after hafter => ?_⟩
    have hwhole : symbolLexeme c (rest ++ after) =
        .ok ⟨piece.kind, c :: rest, rest.length + 1⟩ := by
      rcases symbol_lexeme_parted c rest hafter with heq | heq
      · rw [heq, hend]
      · rw [heq, hspace]
    exact lexeme_iff.mpr (.symbol hquote hdigit hstart (symbol_lexeme_iff.mp hwhole))

end Token

end Script
