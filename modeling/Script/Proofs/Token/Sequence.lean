import Script.Proofs.Token.Lexemes

/-!
# Sources one after the other

A token never goes beyond the line break after a source that is cut into tokens as a whole, and how
a source is cut does not depend on what lies before it. So the tokens of two sources with a
semicolon on a line between them are those of the first, the semicolon, and those of the second,
moved: `tokenize_append`.
-/

namespace Script.Token

/-! ## Before a line break -/

section Break

variable {source : List Char} (after : List Char)

/-- What passes a test that a line break does not pass ends before a line break. -/
theorem take_while_break {test : Char → Bool} (htest : test '\n' = false) :
    (source ++ '\n' :: after).takeWhile test = source.takeWhile test := by
  rw [List.takeWhile_append]
  split
  · rename_i hall
    have hself : source.takeWhile test = source :=
      (List.takeWhile_prefix test).eq_of_length hall
    rw [List.takeWhile_cons_of_neg (by rw [htest]; decide), List.append_nil, hself]
  · rfl

/-- The next character is the same before a line break, as far as a test goes that a line break
does not pass. -/
theorem any_head_break {test : Char → Bool} (htest : test '\n' = false) :
    (source ++ '\n' :: after).head?.any test = source.head?.any test := by
  cases source with
  | nil => exact htest
  | cons c rest => rfl

/-- The next character is the same before a line break, unless it is that. -/
theorem head_break_iff {c : Char} (hc : c ≠ '\n') :
    (source ++ '\n' :: after).head? = some c ↔ source.head? = some c := by
  cases source with
  | nil => simpa using hc.symm
  | cons d rest => rfl

/-- What passes a test is part of the source. -/
theorem length_take_while_le (test : Char → Bool) :
    (source.takeWhile test).length ≤ source.length :=
  (List.takeWhile_sublist test).length_le

/-- The digits after a point end before a line break. -/
theorem fraction_break : fraction (source ++ '\n' :: after) = fraction source := by
  cases source with
  | nil => rfl
  | cons c rest =>
      by_cases hpoint : c = '.'
      · subst hpoint
        exact take_while_break after (by decide)
      · rw [List.cons_append, fraction_of_ne hpoint, fraction_of_ne hpoint]

/-- A number ends before a line break. -/
theorem number_lexeme_break {found : Lexeme} (h : numberLexeme source = .ok found) :
    numberLexeme (source ++ '\n' :: after) = .ok found ∧ found.width ≤ source.length ∧
      found.kind ≠ .eof := by
  refine ⟨?_, number_within_source h⟩
  have hwidth := (number_within_source h).1
  rw [number_width_eq h] at hwidth
  unfold numberLexeme at h ⊢
  dsimp only at h ⊢
  rw [← pointed] at h
  -- The digits before and after the point are the same, and part of the source.
  have hwhole : (source.takeWhile isAsciiDigit).length ≤ source.length := length_take_while_le _
  have hdigits := (@pointed_front source).length_le
  rw [take_while_break after (by decide), List.drop_append_of_le_length hwhole, fraction_break,
    ← pointed]
  generalize fraction (source.drop (source.takeWhile isAsciiDigit).length) = fractional
    at h hdigits hwidth ⊢
  generalize pointed (source.takeWhile isAsciiDigit) fractional = digits at h hdigits hwidth ⊢
  -- So is the letter that may follow them.
  rw [List.drop_append_of_le_length hdigits]
  simp only [head_break_iff after (show 'j' ≠ '\n' by decide),
    head_break_iff after (show 'J' ≠ '\n' by decide)]
  generalize digits.length + _ = width at h hwidth ⊢
  rw [List.drop_append_of_le_length hwidth, any_head_break after (by decide)]
  split at h
  · cases h
  · rename_i hname
    rw [if_neg hname]
    exact h

/-- A symbol ends before a line break. -/
theorem SymbolOf.line_break {c : Char} {found : Lexeme} (h : SymbolOf c source found) :
    SymbolOf c (source ++ '\n' :: after) found ∧ found.width ≤ source.length + 1 := by
  cases h with
  | double hdouble => exact ⟨.double hdouble, Nat.le_add_left 2 _⟩
  | single hdouble hkind =>
      refine ⟨.single ?_ hkind, Nat.le_add_left 1 _⟩
      cases source with
      | nil => simp [doubleOperators]
      | cons d rest => exact hdouble

/-- A word ends before a line break. -/
theorem word_lexeme_break :
    wordLexeme (source ++ '\n' :: after) = wordLexeme source ∧
      (wordLexeme source).width ≤ source.length ∧ (wordLexeme source).kind ≠ .eof := by
  refine ⟨?_, length_take_while_le _, ?_⟩
  · unfold wordLexeme
    rw [take_while_break after (by decide)]
  · unfold wordLexeme
    dsimp only
    split <;> exact nofun

/-- A token ends before a line break. -/
theorem lexeme_break {c : Char} {found : Lexeme} (h : lexeme c source = .ok found) :
    lexeme c (source ++ '\n' :: after) = .ok found ∧ found.width ≤ source.length + 1 ∧
      found.kind ≠ .eof := by
  rw [lexeme_iff] at h ⊢
  cases h with
  | @string body rest hbody =>
      rw [List.append_assoc]
      exact ⟨.string hbody, by simp only [List.length_append, List.length_cons]; omega, nofun⟩
  | @bytes body rest hbody hascii =>
      rw [List.cons_append, List.append_assoc]
      exact ⟨.bytes hbody hascii, by simp only [List.length_append, List.length_cons]; omega, nofun⟩
  | number hdigit hnumber =>
      obtain ⟨hsame, hwidth, hkind⟩ := number_lexeme_break after hnumber
      exact ⟨.number hdigit hsame, hwidth, hkind⟩
  | word hquote hbytes hdigit hstart =>
      obtain ⟨hsame, hwidth, hkind⟩ := @word_lexeme_break (c :: source) after
      refine ⟨?_, hwidth, hkind⟩
      rw [← hsame]
      refine .word hquote ?_ hdigit hstart
      rwa [head_break_iff after (by decide)]
  | symbol hquote hdigit hstart hsymbol =>
      obtain ⟨hsame, hwidth⟩ := hsymbol.line_break after
      refine ⟨.symbol hquote hdigit hstart hsame, hwidth, fun heof => ?_⟩
      exact absurd (heof ▸ hsymbol.kind_mem) (by decide)

end Break

/-! ## Rows of tokens -/

section Rows

variable {done : List Token} {pos line : Nat} {source : List Char} {tokens : List Token}

/-- The tokens of a source are cut off in the same way if a line break and more follow. -/
theorem tokens_from_break (h : tokensFrom done pos line source = .ok tokens) :
    ∃ cut stop last, tokens = done.reverse ++ cut ++ [⟨.eof, "", stop, stop, last⟩] ∧
      (∀ t ∈ cut, t.kind ≠ .eof) ∧
      ∀ after, tokensFrom done pos line (source ++ '\n' :: after) =
        tokensFrom (cut.reverse ++ done) (stop + 1) (last + 1) after := by
  fun_induction tokensFrom done pos line source with
  | case1 done pos line =>
      obtain rfl := Except.ok.inj h
      refine ⟨[], pos, line, by rw [List.append_nil], nofun, fun after => ?_⟩
      rw [List.nil_append, tokensFrom, if_pos rfl]
      rfl
  | case2 done pos line rest ih =>
      obtain ⟨cut, stop, last, htokens, hkinds, hmore⟩ := ih h
      refine ⟨cut, stop, last, htokens, hkinds, fun after => ?_⟩
      rw [List.cons_append, tokensFrom, if_pos rfl, hmore]
  | case3 done pos line c rest hbreak hblank ih =>
      obtain ⟨cut, stop, last, htokens, hkinds, hmore⟩ := ih h
      refine ⟨cut, stop, last, htokens, hkinds, fun after => ?_⟩
      rw [List.cons_append, tokensFrom, if_neg hbreak, if_pos hblank, hmore]
  | case4 done pos line rest comment hbreak hblank ih =>
      obtain ⟨cut, stop, last, htokens, hkinds, hmore⟩ := ih h
      refine ⟨cut, stop, last, htokens, hkinds, fun after => ?_⟩
      have hcomment : (rest ++ '\n' :: after).takeWhile (fun c => decide (c ≠ '\n')) = comment :=
        take_while_break after (by decide)
      rw [List.cons_append, tokensFrom, if_neg hbreak, if_neg hblank, if_pos rfl]
      dsimp only
      rw [hcomment, List.drop_append_of_le_length (length_take_while_le _), hmore]
  | case5 done pos line c rest hbreak hblank hcomment fault offset hfault =>
      cases h
  | case6 done pos line c rest hbreak hblank hcomment found hfound token ih =>
      obtain ⟨cut, stop, last, htokens, hkinds, hmore⟩ := ih h
      refine ⟨token :: cut, stop, last, ?_, ?_, fun after => ?_⟩
      · simpa using htokens
      · exact List.forall_mem_cons.mpr ⟨(lexeme_break [] hfound).2.2, hkinds⟩
      · obtain ⟨hsame, hwidth, -⟩ := lexeme_break after hfound
        rw [List.cons_append, tokensFrom, if_neg hbreak, if_neg hblank, if_neg hcomment, hsame]
        dsimp only
        rw [List.drop_append_of_le_length (by omega), hmore, List.reverse_cons, List.append_assoc]
        rfl

/-- The same token, a number of characters and lines further on. -/
def moved (chars lines : Nat) (token : Token) : Token :=
  ⟨token.kind, token.text, token.pos + chars, token.stop + chars, token.line + lines⟩

/-- A source is cut into the same tokens further on, whatever has been cut off before. -/
theorem tokens_from_moved (chars lines : Nat) (before : List Token)
    (h : tokensFrom done pos line source = .ok tokens) :
    tokensFrom (done.map (moved chars lines) ++ before) (pos + chars) (line + lines) source =
      .ok (before.reverse ++ tokens.map (moved chars lines)) := by
  fun_induction tokensFrom done pos line source with
  | case1 done pos line =>
      obtain rfl := Except.ok.inj h
      rw [tokensFrom]
      simp [moved]
  | case2 done pos line rest ih =>
      rw [tokensFrom, if_pos rfl, ← ih h, Nat.add_right_comm, Nat.add_right_comm line]
  | case3 done pos line c rest hbreak hblank ih =>
      rw [tokensFrom, if_neg hbreak, if_pos hblank, ← ih h, Nat.add_right_comm]
  | case4 done pos line rest comment hbreak hblank ih =>
      have hpos : pos + chars + 1 + comment.length = pos + 1 + comment.length + chars := by omega
      rw [tokensFrom, if_neg hbreak, if_neg hblank, if_pos rfl, ← ih h, ← hpos]
  | case5 done pos line c rest hbreak hblank hcomment fault offset hfault =>
      cases h
  | case6 done pos line c rest hbreak hblank hcomment found hfound token ih =>
      have hpos : pos + chars + found.width = pos + found.width + chars := by omega
      have hline : line + lines + found.text.count '\n' = line + found.text.count '\n' + lines := by
        omega
      have htoken : moved chars lines token =
          ⟨found.kind, String.ofList found.text, pos + chars, pos + chars + found.width,
            line + lines⟩ := by
        rw [hpos]
        rfl
      rw [tokensFrom, if_neg hbreak, if_neg hblank, if_neg hcomment, hfound, ← ih h, ← hpos,
        ← hline, List.map_cons, htoken]
      rfl

end Rows

/-- The semicolon between two sources. -/
def separatorToken (pos line : Nat) : Token :=
  ⟨.semi, ";", pos, pos + 1, line⟩

/-- A semicolon is a token of its own. -/
theorem lexeme_semi (rest : List Char) : lexeme ';' rest = .ok ⟨.semi, [';'], 1⟩ := by
  have hdouble : doubleOperators.contains (';' :: rest.take 1) = false := by
    simp [doubleOperators]
  have hbytes : (decide (';' = 'b') && decide (rest.head? = some '"')) = false := by
    rw [decide_eq_false (by decide), Bool.false_and]
  unfold lexeme symbolLexeme
  rw [if_neg (by decide), hbytes, if_neg (by decide), if_neg (by decide), if_neg (by decide)]
  dsimp only
  rw [hdouble]
  rfl

/-- Cutting off a semicolon. -/
theorem tokens_from_semi (done : List Token) (pos line : Nat) (rest : List Char) :
    tokensFrom done pos line (';' :: rest) =
      tokensFrom (separatorToken pos line :: done) (pos + 1) line rest := by
  rw [tokensFrom, if_neg (by decide), if_neg (by decide), if_neg (by decide), lexeme_semi]
  rfl

/-- The tokens of two sources with a semicolon on a line between them. -/
theorem tokenize_append {first second : String} {tokens tokens₂ : List Token}
    (h : tokenize first = .ok tokens) (h₂ : tokenize second = .ok tokens₂) :
    ∃ cut stop last, tokens = cut ++ [⟨.eof, "", stop, stop, last⟩] ∧
      (∀ t ∈ cut, t.kind ≠ .eof) ∧
      tokenize (first ++ "\n;\n" ++ second) =
        .ok (cut ++ separatorToken (stop + 1) (last + 1) ::
          tokens₂.map (moved (stop + 3) (last + 1))) := by
  obtain ⟨cut, stop, last, htokens, hkinds, hmore⟩ := tokens_from_break h
  refine ⟨cut, stop, last, htokens, hkinds, ?_⟩
  have hsource : (first ++ "\n;\n" ++ second).toList =
      first.toList ++ '\n' :: ';' :: '\n' :: second.toList := by
    rw [String.toList_append, String.toList_append, List.append_assoc]
    rfl
  have hmoved := tokens_from_moved (stop + 3) (last + 1)
    (separatorToken (stop + 1) (last + 1) :: cut.reverse) h₂
  rw [List.map_nil, List.nil_append, Nat.zero_add, Nat.add_comm 1] at hmoved
  unfold tokenize
  rw [hsource, hmore, List.append_nil, tokens_from_semi, tokensFrom, if_pos rfl, hmoved,
    List.reverse_cons, List.reverse_reverse, List.append_assoc]
  rfl

end Script.Token
