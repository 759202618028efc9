import Script.Token.Lexer

/-!
# What a token can be

The first characters of a source decide which class of token is cut off. `LexemeOf` has one rule for
each class, with the front of the source that it takes, and `lexeme_iff` says that these are all.
`SymbolOf` does the same for operators and punctuation marks, and `NumberCut` says how a number is
made of its digits and of what follows them.
-/

namespace Script.Token

/-! ## Quoted texts -/

/-- A text up to a character that it does not hold. -/
theorem take_while_ne {c : Char} {front : List Char} (hfront : c ∉ front) (after : List Char) :
    (front ++ c :: after).takeWhile (· ≠ c) = front := by
  have hall : ∀ d ∈ front, decide (d ≠ c) = true := by
    intro d hd
    refine decide_eq_true ?_
    rintro rfl
    exact hfront hd
  rw [List.takeWhile_append_of_pos hall, List.takeWhile_cons_of_neg (by simp), List.append_nil]

/-- A quoted text ends at the first quotation mark. -/
theorem quoted_body_iff {source body : List Char} :
    quotedBody? source = some body ↔ ∃ after, source = body ++ '"' :: after ∧ '"' ∉ body := by
  unfold quotedBody?
  constructor
  · intro h
    split at h
    · rename_i hclosed
      obtain ⟨front, after, rfl, hfront⟩ :=
        List.eq_append_cons_of_mem (List.contains_iff_mem.mp hclosed)
      rw [take_while_ne hfront] at h
      obtain rfl := Option.some.inj h
      exact ⟨after, rfl, hfront⟩
    · cases h
  · rintro ⟨after, rfl, hbody⟩
    rw [if_pos (by simp), take_while_ne hbody]

/-- A quoted text that does not end has no quotation mark. -/
theorem not_mem_of_quoted_body {source : List Char} (h : quotedBody? source = none) :
    '"' ∉ source := by
  unfold quotedBody? at h
  split at h
  · cases h
  · rename_i hopen
    exact fun hmem => hopen (List.contains_iff_mem.mpr hmem)

/-! ## Numbers -/

/-- The digits of a number, with a point if some of them stand after it. -/
def pointed (whole fractional : List Char) : List Char :=
  if fractional.isEmpty then whole else whole ++ '.' :: fractional

/-- Which number the digits make, by what stands after the point and by what follows them. -/
inductive NumberEnd (digits fractional : List Char) : List Char → Lexeme → Prop where
  | imaginary {c : Char} {after : List Char} : c = 'j' ∨ c = 'J' →
      NumberEnd digits fractional (c :: after) ⟨.imag, digits, digits.length + 1⟩
  | float {after : List Char} : fractional.isEmpty = false →
      NumberEnd digits fractional after ⟨.float, digits, digits.length⟩
  | int {after : List Char} : fractional.isEmpty = true →
      digits.length ≤ Number.maxTextDigits → Number.ofDigits digits < integerBound →
      NumberEnd digits fractional after ⟨.int, digits, digits.length⟩

/-- A number at the front of a source: all digits up to the first other character, digits after a
point, and what follows. -/
structure NumberCut (source : List Char) (found : Lexeme) (whole fractional after : List Char) :
    Prop where
  source_eq : source = pointed whole fractional ++ after
  whole_eq : whole = source.takeWhile isAsciiDigit
  fractional_digits : ∀ c ∈ fractional, isAsciiDigit c = true
  ending : NumberEnd (pointed whole fractional) fractional after found

section Number

variable {source : List Char} {found : Lexeme}

/-- All that passes a test up to the first character that does not. -/
theorem of_mem_take_while {test : Char → Bool} {c : Char} (h : c ∈ source.takeWhile test) :
    test c = true :=
  List.all_eq_true.mp List.all_takeWhile c h

/-- Without a point there are no digits after it. -/
theorem fraction_of_ne {c : Char} (h : c ≠ '.') (rest : List Char) : fraction (c :: rest) = [] :=
  fraction.eq_2 _ fun _ heq => h (List.cons.inj heq).1

/-- What stands after a point, if anything does, are digits that follow it. -/
theorem fraction_spec :
    (∀ c ∈ fraction source, isAsciiDigit c = true) ∧
      ((fraction source).isEmpty = false → '.' :: fraction source <+: source) := by
  cases source with
  | nil => exact ⟨nofun, nofun⟩
  | cons c rest =>
      by_cases hpoint : c = '.'
      · subst hpoint
        exact ⟨fun d hd => of_mem_take_while hd,
          fun _ => List.cons_prefix_cons.mpr ⟨rfl, List.takeWhile_prefix _⟩⟩
      · rw [fraction_of_ne hpoint]
        exact ⟨nofun, nofun⟩

/-- The digits of a number are the front of the source. -/
theorem pointed_front :
    pointed (source.takeWhile isAsciiDigit)
      (fraction (source.drop (source.takeWhile isAsciiDigit).length)) <+: source := by
  unfold pointed
  split
  · exact List.takeWhile_prefix _
  · rename_i hempty
    rw [Bool.not_eq_true] at hempty
    -- The point and the digits after it stand where the digits before it end.
    have hpoint := fraction_spec.2 hempty
    obtain ⟨after, hafter⟩ := List.takeWhile_prefix (l := source) isAsciiDigit
    generalize source.takeWhile isAsciiDigit = whole at hafter hpoint ⊢
    rw [← hafter, List.drop_left] at hpoint ⊢
    exact (List.prefix_append_right_inj whole).mpr hpoint

/-- How a number is made. -/
theorem exists_number_cut (h : numberLexeme source = .ok found) :
    ∃ whole fractional after, NumberCut source found whole fractional after := by
  obtain ⟨after, hsource⟩ := @pointed_front source
  have hfractional := (@fraction_spec
    (source.drop (source.takeWhile isAsciiDigit).length)).1
  unfold numberLexeme at h
  dsimp only at h
  generalize fraction (source.drop (source.takeWhile isAsciiDigit).length) = fractional
    at h hsource hfractional
  refine ⟨_, fractional, after, hsource.symm, rfl, hfractional, ?_⟩
  rw [← pointed] at h
  generalize pointed (source.takeWhile isAsciiDigit) fractional = digits at h hsource ⊢
  rw [← hsource, List.drop_left] at h
  -- The letter after the digits decides between the classes.
  by_cases hsuffix : (after.head? = some 'j' || after.head? = some 'J') = true
  · simp only [if_pos hsuffix] at h
    split at h
    · cases h
    obtain rfl := Except.ok.inj h
    rw [Bool.or_eq_true, decide_eq_true_eq, decide_eq_true_eq] at hsuffix
    cases after with
    | nil => exact absurd hsuffix (by simp)
    | cons c after =>
        rw [List.head?_cons, Option.some.injEq, Option.some.injEq] at hsuffix
        exact .imaginary hsuffix
  · simp only [if_neg hsuffix, Nat.add_zero] at h
    split at h
    · cases h
    split at h
    · rename_i hempty
      obtain rfl := Except.ok.inj h
      exact .float (by simpa using hempty)
    rename_i hempty
    split at h
    · cases h
    rename_i hlength
    split at h
    · cases h
    · rename_i hbound
      obtain rfl := Except.ok.inj h
      exact .int (by simpa using hempty) (Nat.le_of_not_lt hlength) (Nat.lt_of_not_le hbound)

/-- A number is as wide as its digits and a letter that may follow them. -/
theorem number_width_eq (h : numberLexeme source = .ok found) :
    let digits := pointed (source.takeWhile isAsciiDigit)
      (fraction (source.drop (source.takeWhile isAsciiDigit).length))
    found.width = digits.length +
      (if (decide ((source.drop digits.length).head? = some 'j') ||
        decide ((source.drop digits.length).head? = some 'J')) = true then 1 else 0) := by
  intro digits
  unfold numberLexeme at h
  dsimp only at h
  rw [← pointed] at h
  change (if (source.drop (digits.length + _)).head?.any isNamePart = true then _ else _) = _ at h
  generalize digits.length + _ = width at h ⊢
  split at h
  · cases h
  split at h
  · obtain rfl := Except.ok.inj h
    rfl
  split at h
  · obtain rfl := Except.ok.inj h
    rfl
  split at h
  · cases h
  split at h
  · cases h
  · obtain rfl := Except.ok.inj h
    rfl

/-- A number is part of the source, and is not the end. -/
theorem number_within_source (h : numberLexeme source = .ok found) :
    found.width ≤ source.length ∧ found.kind ≠ .eof := by
  obtain ⟨whole, fractional, after, hcut⟩ := exists_number_cut h
  have hlength := congrArg List.length hcut.source_eq
  rw [List.length_append] at hlength
  have hdigits : (pointed whole fractional).length ≤ source.length :=
    hlength ▸ Nat.le_add_right _ _
  cases hcut.ending with
  | imaginary _ =>
      rw [List.length_cons] at hlength
      exact ⟨show _ + 1 ≤ _ by omega, nofun⟩
  | float _ => exact ⟨hdigits, nofun⟩
  | int _ _ _ => exact ⟨hdigits, nofun⟩

end Number

/-! ## Symbols -/

/-- The class of a symbol of one character. -/
def symbolKind? (c : Char) : Option TokenKind :=
  match punctuation? c with
  | some kind => some kind
  | none => if singleOperators.contains c then some .op else none

/-- An operator of two characters, or a symbol of one that does not go on as such an operator. -/
inductive SymbolOf : Char → List Char → Lexeme → Prop where
  | double {c d : Char} {after : List Char} : doubleOperators.contains [c, d] = true →
      SymbolOf c (d :: after) ⟨.op, [c, d], 2⟩
  | single {c : Char} {rest : List Char} {kind : TokenKind} :
      doubleOperators.contains (c :: rest.take 1) = false → symbolKind? c = some kind →
      SymbolOf c rest ⟨kind, [c], 1⟩

/-- No operator of two characters has only one. -/
theorem single_not_double (c : Char) : doubleOperators.contains [c] = false := by
  simp [doubleOperators]

/-- The symbols that can be cut off. -/
theorem symbol_lexeme_iff {c : Char} {rest : List Char} {found : Lexeme} :
    symbolLexeme c rest = .ok found ↔ SymbolOf c rest found := by
  unfold symbolLexeme
  dsimp only
  constructor
  · intro h
    split at h
    · rename_i hdouble
      obtain rfl := Except.ok.inj h
      cases rest with
      | nil => exact absurd hdouble (by rw [List.take_nil, single_not_double]; decide)
      | cons d after => exact .double hdouble
    rename_i hdouble
    rw [Bool.not_eq_true] at hdouble
    cases hmark : punctuation? c with
    | some kind =>
        rw [hmark] at h
        obtain rfl := Except.ok.inj h
        exact .single hdouble (by rw [symbolKind?, hmark])
    | none =>
        rw [hmark] at h
        dsimp only at h
        split at h
        · rename_i hsingle
          obtain rfl := Except.ok.inj h
          exact .single hdouble (by rw [symbolKind?, hmark]; exact if_pos hsingle)
        · cases h
  · intro h
    cases h with
    | double hdouble => exact if_pos hdouble
    | single hdouble hkind =>
        rw [hdouble, if_neg Bool.false_ne_true]
        unfold symbolKind? at hkind
        cases hmark : punctuation? c with
        | some kind =>
            rw [hmark] at hkind
            obtain rfl := Option.some.inj hkind
            rfl
        | none =>
            rw [hmark] at hkind
            dsimp only at hkind ⊢
            split at hkind
            · rename_i hsingle
              obtain rfl := Option.some.inj hkind
              exact if_pos hsingle
            · cases hkind

/-- The classes of symbols. -/
def symbolKinds : List TokenKind :=
  [.lparen, .rparen, .lbrack, .rbrack, .lbrace, .rbrace, .comma, .semi, .colon, .dot, .atSign, .op]

/-- The class of a symbol of one character is one of these. -/
theorem symbol_kind_mem {c : Char} {kind : TokenKind} (h : symbolKind? c = some kind) :
    kind ∈ symbolKinds := by
  unfold symbolKind? at h
  cases hmark : punctuation? c with
  | some mark =>
      rw [hmark] at h
      obtain rfl := Option.some.inj h
      unfold punctuation? at hmark
      split at hmark
      case h_12 => cases hmark
      all_goals
        obtain rfl := Option.some.inj hmark
        decide
  | none =>
      rw [hmark] at h
      dsimp only at h
      split at h
      · obtain rfl := Option.some.inj h
        decide
      · cases h

/-- A symbol is of one of these classes. -/
theorem SymbolOf.kind_mem {c : Char} {rest : List Char} {found : Lexeme}
    (h : SymbolOf c rest found) : found.kind ∈ symbolKinds := by
  cases h with
  | double _ => exact List.contains_iff_mem.mp rfl
  | single _ hkind => exact symbol_kind_mem hkind

/-! ## All classes -/

/-- The tokens that can be cut off, each with the front of a source that it is cut off from. -/
inductive LexemeOf : Char → List Char → Lexeme → Prop where
  | string {body after : List Char} : '"' ∉ body →
      LexemeOf '"' (body ++ '"' :: after) ⟨.string, body, body.length + 2⟩
  | bytes {body after : List Char} : '"' ∉ body → (∀ c ∈ body, c.toNat < 128) →
      LexemeOf 'b' ('"' :: (body ++ '"' :: after)) ⟨.bytes, body, body.length + 3⟩
  | number {c : Char} {rest : List Char} {found : Lexeme} : isAsciiDigit c = true →
      numberLexeme (c :: rest) = .ok found → LexemeOf c rest found
  | word {c : Char} {rest : List Char} : c ≠ '"' → ¬ (c = 'b' ∧ rest.head? = some '"') →
      isAsciiDigit c = false → isNameStart c = true → LexemeOf c rest (wordLexeme (c :: rest))
  | symbol {c : Char} {rest : List Char} {found : Lexeme} : c ≠ '"' → isAsciiDigit c = false →
      isNameStart c = false → SymbolOf c rest found → LexemeOf c rest found

/-- What starts with a digit is a number or at fault. -/
theorem lexeme_of_digit {c : Char} (hdigit : isAsciiDigit c = true) (rest : List Char) :
    lexeme c rest = (numberLexeme (c :: rest)).mapError (·, 0) := by
  have hquote : c ≠ '"' := by
    rintro rfl
    exact absurd hdigit (by decide)
  have hbytes : c ≠ 'b' := by
    rintro rfl
    exact absurd hdigit (by decide)
  unfold lexeme
  rw [if_neg hquote, decide_eq_false hbytes, Bool.false_and, if_neg Bool.false_ne_true,
    if_pos hdigit]

/-- A token that is found is found wherever a fault would have been. -/
theorem ok_of_map_error {lexed : Except LexFault Lexeme} {found : Lexeme} {offset : Nat}
    (h : lexed.mapError (·, offset) = .ok found) : lexed = .ok found := by
  cases lexed with
  | error fault => cases h
  | ok other =>
      obtain rfl := Except.ok.inj h
      rfl

section Classes

variable {c : Char} {rest : List Char} {found : Lexeme}

/-- No other token can be cut off. -/
theorem LexemeOf.of_lexeme (h : lexeme c rest = .ok found) : LexemeOf c rest found := by
  unfold lexeme at h
  split at h
  · rename_i hquote
    subst hquote
    split at h
    · rename_i body hbody
      obtain rfl := Except.ok.inj h
      obtain ⟨after, rfl, hquote⟩ := quoted_body_iff.mp hbody
      exact .string hquote
    · cases h
  rename_i hquote
  split at h
  · rename_i hbytes
    rw [Bool.and_eq_true, decide_eq_true_eq, decide_eq_true_eq] at hbytes
    obtain ⟨rfl, hhead⟩ := hbytes
    obtain ⟨tail, rfl⟩ := List.head?_eq_some_iff.mp hhead
    rw [List.tail_cons] at h
    split at h
    · rename_i body hbody
      split at h
      · rename_i hascii
        obtain rfl := Except.ok.inj h
        obtain ⟨after, rfl, hquote⟩ := quoted_body_iff.mp hbody
        exact .bytes hquote fun d hd => of_decide_eq_true (List.all_eq_true.mp hascii d hd)
      · cases h
    · cases h
  rename_i hbytes
  rw [Bool.and_eq_true, decide_eq_true_eq, decide_eq_true_eq] at hbytes
  split at h
  · rename_i hdigit
    exact .number hdigit (ok_of_map_error h)
  rename_i hdigit
  rw [Bool.not_eq_true] at hdigit
  split at h
  · rename_i hstart
    obtain rfl := Except.ok.inj h
    exact .word hquote hbytes hdigit hstart
  · rename_i hstart
    rw [Bool.not_eq_true] at hstart
    exact .symbol hquote hdigit hstart (symbol_lexeme_iff.mp (ok_of_map_error h))

/-- Each of these tokens is cut off. -/
theorem LexemeOf.lexeme_eq (h : LexemeOf c rest found) : lexeme c rest = .ok found := by
  cases h with
  | @string body after hquote =>
      unfold lexeme
      rw [if_pos rfl, quoted_body_iff.mpr ⟨after, rfl, hquote⟩]
  | @bytes body after hquote hascii =>
      have hall : body.all (fun c => decide (c.toNat < 128)) = true :=
        List.all_eq_true.mpr fun c hc => decide_eq_true (hascii c hc)
      unfold lexeme
      rw [if_neg (by decide), List.head?_cons, if_pos (by decide), List.tail_cons,
        quoted_body_iff.mpr ⟨after, rfl, hquote⟩]
      exact if_pos hall
  | number hdigit hnumber => exact (lexeme_of_digit hdigit rest).trans (by rw [hnumber]; rfl)
  | word hquote hbytes hdigit hstart =>
      unfold lexeme
      rw [if_neg hquote, if_neg (by simpa using hbytes), hdigit, if_neg Bool.false_ne_true,
        if_pos hstart]
  | symbol hquote hdigit hstart hsymbol =>
      have hbytes : c ≠ 'b' := by
        rintro rfl
        exact absurd hstart (by decide)
      unfold lexeme
      rw [if_neg hquote, decide_eq_false hbytes, Bool.false_and, if_neg Bool.false_ne_true,
        hdigit, if_neg Bool.false_ne_true, hstart, if_neg Bool.false_ne_true,
        symbol_lexeme_iff.mpr hsymbol]
      rfl

/-- These are all tokens, and each of them is cut off. -/
theorem lexeme_iff : lexeme c rest = .ok found ↔ LexemeOf c rest found :=
  ⟨.of_lexeme, LexemeOf.lexeme_eq⟩

end Classes

/-! ## Faults -/

theorem offset_of_map_error {lexed : Except LexFault Lexeme} {fault : LexFault} {offset : Nat}
    (h : lexed.mapError (·, 0) = .error (fault, offset)) : offset = 0 := by
  cases lexed with
  | error other =>
      cases h
      rfl
  | ok found => cases h

/-- A fault has the place at which its token starts, except that bytes that are not closed have that
of their quotation mark. -/
theorem fault_offset_cases {c : Char} {rest : List Char} {fault : LexFault} {offset : Nat}
    (h : lexeme c rest = .error (fault, offset)) :
    offset = 0 ∨ c = 'b' ∧ fault = .unterminatedString ∧ offset = 1 ∧
      ∃ body, rest = '"' :: body ∧ '"' ∉ body := by
  unfold lexeme at h
  split at h
  · split at h
    · cases h
    · cases h
      exact .inl rfl
  split at h
  · rename_i hbytes
    rw [Bool.and_eq_true, decide_eq_true_eq, decide_eq_true_eq] at hbytes
    obtain ⟨rfl, hhead⟩ := hbytes
    obtain ⟨body, rfl⟩ := List.head?_eq_some_iff.mp hhead
    rw [List.tail_cons] at h
    cases hbody : quotedBody? body with
    | some text =>
        rw [hbody] at h
        dsimp only at h
        split at h
        · cases h
        · cases h
          exact .inl rfl
    | none =>
        rw [hbody] at h
        cases h
        exact .inr ⟨rfl, rfl, rfl, body, rfl, not_mem_of_quoted_body hbody⟩
  split at h
  · exact .inl (offset_of_map_error h)
  split at h
  · cases h
  · exact .inl (offset_of_map_error h)

end Script.Token
