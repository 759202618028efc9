import Script.Proofs.Token.Spelling

/-!
# Sources that are one integer

A source of digits is one token, unless there are too many of them or their number is too large
(`tokenize_digits`).
-/

namespace Script.Token

variable {digits : List Char} (hdigits : ∀ c ∈ digits, isAsciiDigit c = true)

include hdigits

theorem number_lexeme_of_digits :
    numberLexeme digits =
      if Number.maxTextDigits < digits.length then .error (.invalidNumber (String.ofList digits))
      else if integerBound ≤ Number.ofDigits digits then
        .error (.integerOutOfRange (String.ofList digits))
      else .ok ⟨.int, digits, digits.length⟩ := by
  have hreal : numberLexeme (pointed digits [] ++ []) = _ :=
    number_lexeme_real (.inl rfl) hdigits nofun
  rw [List.append_nil] at hreal
  exact hreal

/-- A source of digits is one integer, or is at fault from its first digit on. -/
theorem tokenize_digits (hne : digits ≠ []) :
    tokenize (String.ofList digits) =
      if Number.maxTextDigits < digits.length then
        .error ⟨.invalidNumber (String.ofList digits), 0⟩
      else if integerBound ≤ Number.ofDigits digits then
        .error ⟨.integerOutOfRange (String.ofList digits), 0⟩
      else .ok [⟨.int, String.ofList digits, 0, digits.length, 1⟩,
        ⟨.eof, "", digits.length, digits.length, 1⟩] := by
  have hnumber := number_lexeme_of_digits hdigits
  have honeLine : digits.count '\n' = 0 := by
    refine List.count_eq_zero.mpr fun hmem => ?_
    exact absurd (hdigits '\n' hmem) (by decide)
  obtain ⟨c, rest, rfl⟩ := List.exists_cons_of_ne_nil hne
  have hfirst : isAsciiDigit c = true := hdigits c List.mem_cons_self
  obtain ⟨hblank, hcomment⟩ := digit_spec hfirst
  have hbreak : c ≠ '\n' := by
    rintro rfl
    exact absurd hfirst (by decide)
  rw [tokenize, String.toList_ofList, tokensFrom, if_neg hbreak, hblank,
    if_neg Bool.false_ne_true, if_neg hcomment, lexeme_of_digit hfirst, hnumber]
  by_cases hlong : Number.maxTextDigits < (c :: rest).length
  · rw [if_pos hlong, if_pos hlong]
    rfl
  · rw [if_neg hlong, if_neg hlong]
    by_cases hlarge : integerBound ≤ Number.ofDigits (c :: rest)
    · rw [if_pos hlarge, if_pos hlarge]
      rfl
    · rw [if_neg hlarge, if_neg hlarge]
      have hdrop : rest.drop ((c :: rest).length - 1) = [] := List.drop_length
      show tokensFrom _ _ _ (rest.drop ((c :: rest).length - 1)) = _
      rw [hdrop, honeLine, tokensFrom, Nat.zero_add]
      rfl

end Script.Token
