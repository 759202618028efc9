import Script.Proofs.Token.Cover

/-!
# Single spaces between tokens

Whether a token goes on is told by the character after it, and a space never goes on with one. So a
token that is cut off somewhere is cut off the same where a space follows, and a source whose tokens
are written again with single spaces between them has tokens of the same classes and texts:
`tokenize_respaced`.
-/

namespace Script.Token

open Piece

/-! ## A token with a space after it -/

section Parted

variable {source after : List Char} {found : Lexeme} (hafter : Parted after)

/-- A word that is cut off is made of what names are made of. -/
theorem take_word_width : source.take (wordLexeme source).width = source.takeWhile isNamePart :=
  (List.prefix_iff_eq_take.mp (List.takeWhile_prefix isNamePart)).symm

include hafter

/-- A number is the same before a space. -/
theorem number_lexeme_parted (h : numberLexeme source = .ok found) :
    numberLexeme (source.take found.width ++ after) = .ok found := by
  obtain ⟨whole, fractional, rest, hcut⟩ := exists_number_cut h
  have hwhole : ∀ c ∈ whole, isAsciiDigit c = true :=
    fun c hc => of_mem_take_while (hcut.whole_eq ▸ hc)
  have hreal := number_lexeme_real hafter hwhole hcut.fractional_digits
  rw [hcut.source_eq]
  cases hcut.ending with
  | @imaginary c rest hc =>
      rw [List.take_length_add_append, List.append_assoc]
      exact number_lexeme_imaginary hafter hwhole hcut.fractional_digits hc
  | float hfractional =>
      rw [List.take_left, hreal, hfractional]
      rfl
  | int hfractional hlength hbound =>
      rw [List.take_left, hreal, hfractional, Bool.not_true, if_neg Bool.false_ne_true,
        if_neg (Nat.not_lt_of_le hlength), if_neg (Nat.not_le_of_lt hbound)]

/-- A word is the same before a space. -/
theorem word_lexeme_parted :
    wordLexeme (source.take (wordLexeme source).width ++ after) = wordLexeme source := by
  have hword : (source.takeWhile isNamePart ++ after).takeWhile isNamePart =
      source.takeWhile isNamePart :=
    hafter.take_while (by decide) fun c hc => of_mem_take_while hc
  rw [take_word_width]
  unfold wordLexeme
  rw [hword]

/-- A symbol is the same before a space. -/
theorem SymbolOf.parted {c : Char} (h : SymbolOf c source found) :
    SymbolOf c (source.take (found.width - 1) ++ after) found := by
  cases h with
  | double hdouble => exact .double hdouble
  | single _ hkind =>
      refine .single ?_ hkind
      obtain rfl | ⟨rest, rfl⟩ := hafter
      · exact single_not_double c
      · simp [doubleOperators]

/-- What a text starts with before a space, unless it is the space, the whole source starts with. -/
theorem head_parted {n : Nat} {d : Char} (hd : d ≠ ' ')
    (h : (source.take n ++ after).head? = some d) : source.head? = some d := by
  cases htake : source.take n with
  | nil =>
      rw [htake, List.nil_append] at h
      obtain rfl | ⟨rest, rfl⟩ := hafter
      · cases h
      · exact absurd (Option.some.inj h).symm hd
  | cons e front =>
      obtain ⟨back, hback⟩ := List.take_prefix n source
      rw [htake] at h hback
      rw [← hback]
      exact h

/-- The token at the front of a source is the same before a space. -/
theorem lexeme_parted {c : Char} (h : lexeme c source = .ok found) :
    lexeme c (source.take (found.width - 1) ++ after) = .ok found := by
  have hcons : c :: (source.take (found.width - 1) ++ after) =
      (c :: source).take found.width ++ after := by
    rw [← List.cons_append, ← List.take_succ_cons, Nat.sub_add_cancel (lexeme_width_pos h)]
  rw [lexeme_iff] at h ⊢
  cases h with
  | @string body rest hbody =>
      have htake : (body ++ '"' :: rest).take (body.length + 2 - 1) = body ++ ['"'] :=
        List.take_length_add_append 1
      rw [htake, List.append_assoc]
      exact .string hbody
  | @bytes body rest hbody hascii =>
      have htake : ('"' :: (body ++ '"' :: rest)).take (body.length + 3 - 1) =
          '"' :: (body ++ ['"']) :=
        congrArg ('"' :: ·) (List.take_length_add_append 1)
      rw [htake, List.cons_append, List.append_assoc]
      exact .bytes hbody hascii
  | number hdigit hnumber =>
      refine .number hdigit ?_
      rw [hcons]
      exact number_lexeme_parted hafter hnumber
  | word hquote hbytes hdigit hstart =>
      -- A name `b` takes no quotation mark that has stood further on.
      have hword := @word_lexeme_parted (c :: source) after hafter
      rw [← hcons] at hword
      have hhead := @head_parted source after hafter ((wordLexeme (c :: source)).width - 1) '"'
        (by decide)
      generalize source.take ((wordLexeme (c :: source)).width - 1) = front at hword hhead ⊢
      rw [← hword]
      exact .word hquote (fun hboth => hbytes ⟨hboth.1, hhead hboth.2⟩) hdigit hstart
  | symbol hquote hdigit hstart hsymbol =>
      exact .symbol hquote hdigit hstart (hsymbol.parted hafter)

end Parted

/-! ## A source written again -/

/-- A source written again: its tokens as they stand in it, with single spaces between them. -/
def respaced (source : String) (tokens : List Token) : String :=
  " ".intercalate
    ((tokens.filter (·.kind ≠ .eof)).map fun t => String.ofList (slice source t.pos t.stop))

variable {source : String}

/-- A token that is cut off is spelled by what stands in its place. -/
theorem CutAt.spelled {token : Token} (h : CutAt source token) :
    token.piece.Spelled (slice source token.pos token.stop) := by
  obtain ⟨c, rest, hrest, hstarts, hlexeme⟩ := h.lexeme
  have hpos : 0 < token.stop - token.pos := Nat.sub_pos_of_lt h.lt
  obtain ⟨-, hwidth, -⟩ := lexeme_break [] hlexeme
  refine ⟨c, rest.take (token.stop - token.pos - 1), ?_, hstarts, fun after hafter => ?_⟩
  · rw [slice, hrest, ← List.take_succ_cons, Nat.sub_add_cancel hpos]
  · have hlength : (rest.take (token.stop - token.pos - 1)).length + 1 =
        token.stop - token.pos := by
      rw [List.length_take]
      dsimp only at hwidth
      omega
    rw [lexeme_parted hafter hlexeme, hlength]
    rfl

/-- A source and its tokens written with single spaces between them are cut into the same classes
and texts. -/
theorem tokenize_respaced {tokens : List Token} (h : tokenize source = .ok tokens) :
    ∃ tokens', tokenize (respaced source tokens) = .ok tokens' ∧
      tokens'.map piece = tokens.map piece := by
  obtain ⟨cut, rfl, hcut⟩ := (tiles_of_tokenize h).exists_cut
  have hfilter : (cut ++ [endToken source]).filter (·.kind ≠ .eof) = cut := by
    rw [List.filter_append, List.filter_eq_self.mpr fun t ht =>
      decide_eq_true (hcut t ht).kind_ne_eof]
    exact List.append_nil cut
  have hspelled : List.Forall₂ Spelled (cut.map piece)
      (cut.map fun t => slice source t.pos t.stop) :=
    List.forall₂_map_left_iff.mpr (List.forall₂_map_right_iff.mpr (List.forall₂_same.mpr
      fun t ht => (hcut t ht).spelled))
  obtain ⟨tokens', htokens, hmap, -⟩ := tokens_from_parted hspelled [] 0 1
  refine ⟨tokens', ?_, by rw [hmap, List.map_append]; rfl⟩
  unfold tokenize respaced
  rw [hfilter, String.toList_intercalate, List.map_map]
  simp only [Function.comp_def, String.toList_ofList]
  exact htokens

/-- A text over two lines with a comment sign in it, an imaginary number before a field, bytes, and
two operators without a space: written again, all but the comment is there. -/
theorem tokenize_respaced_comment :
    let source := "b1\"x\n#\"# no text\n2.5j.b==-b\"y\""
    let tokens : List Token :=
      [⟨.name, "b1", 0, 2, 1⟩, ⟨.string, "x\n#", 2, 7, 1⟩, ⟨.imag, "2.5", 17, 21, 3⟩,
        ⟨.dot, ".", 21, 22, 3⟩, ⟨.name, "b", 22, 23, 3⟩, ⟨.op, "==", 23, 25, 3⟩,
        ⟨.op, "-", 25, 26, 3⟩, ⟨.bytes, "y", 26, 30, 3⟩, ⟨.eof, "", 30, 30, 3⟩]
    tokenize source = .ok tokens ∧
      respaced source tokens = "b1 \"x\n#\" 2.5j . b == - b\"y\"" ∧
      ∃ tokens', tokenize (respaced source tokens) = .ok tokens' ∧
        tokens'.map piece = tokens.map piece := by
  intro source tokens
  have htokens : tokenize source = .ok tokens := by decide +kernel
  exact ⟨htokens, by decide, tokenize_respaced htokens⟩

end Script.Token
