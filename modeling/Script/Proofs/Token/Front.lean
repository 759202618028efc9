import Script.Proofs.Token.Sequence

/-!
# Tokens in the front of a source

Whether a token goes on is told by the characters after it, and where there are none it does not. So
a token that is cut off a source is cut off the same way if the source ends earlier, as long as the
token is within what is left: `lexeme_front`.
-/

namespace Script.Token

variable {front back : List Char} {found : Lexeme}

/-! ## Scanning -/

/-- What passes a test is the same in a front that holds all of it. -/
theorem take_while_front {test : Char → Bool}
    (h : ((front ++ back).takeWhile test).length ≤ front.length) :
    (front ++ back).takeWhile test = front.takeWhile test := by
  calc (front ++ back).takeWhile test
      = ((front ++ back).takeWhile test).take front.length := (List.take_of_length_le h).symm
    _ = ((front ++ back).take front.length).takeWhile test := List.take_takeWhile
    _ = front.takeWhile test := by rw [List.take_left]

theorem any_head_front {test : Char → Bool} (h : (front ++ back).head?.any test = false) :
    front.head?.any test = false := by
  cases front with
  | nil => rfl
  | cons c rest => exact h

theorem head_front {c : Char} (h : front.head? = some c) (back : List Char) :
    (front ++ back).head? = some c := by
  rw [List.head?_append, h]
  rfl

theorem fraction_front (h : (fraction (front ++ back)).length ≤ front.tail.length) :
    fraction (front ++ back) = fraction front := by
  cases front with
  | nil => exact List.eq_nil_of_length_eq_zero (Nat.le_zero.mp h)
  | cons c rest =>
      by_cases hpoint : c = '.'
      · subst hpoint
        exact take_while_front h
      · rw [List.cons_append, fraction_of_ne hpoint, fraction_of_ne hpoint]

/-! ## Numbers -/

theorem length_pointed (whole fractional : List Char) :
    (pointed whole fractional).length =
      whole.length + if fractional.isEmpty then 0 else fractional.length + 1 := by
  unfold pointed
  split
  · rfl
  · rw [List.length_append, List.length_cons]

/-- A number takes its digits. -/
theorem length_digits_le_width {source : List Char} (h : numberLexeme source = .ok found) :
    (pointed (source.takeWhile isAsciiDigit)
      (fraction (source.drop (source.takeWhile isAsciiDigit).length))).length ≤ found.width :=
  number_width_eq h ▸ Nat.le_add_right _ _

/-- The digits of a number before and after its point are the same in a front that holds them. -/
theorem digits_front
    (h : (pointed ((front ++ back).takeWhile isAsciiDigit)
      (fraction ((front ++ back).drop ((front ++ back).takeWhile isAsciiDigit).length))).length ≤
        front.length) :
    (front ++ back).takeWhile isAsciiDigit = front.takeWhile isAsciiDigit ∧
      fraction ((front ++ back).drop (front.takeWhile isAsciiDigit).length) =
        fraction (front.drop (front.takeWhile isAsciiDigit).length) := by
  rw [length_pointed] at h
  have hwhole : (front ++ back).takeWhile isAsciiDigit = front.takeWhile isAsciiDigit :=
    take_while_front (by omega)
  have hlength : (front.takeWhile isAsciiDigit).length ≤ front.length := length_take_while_le _
  rw [hwhole, List.drop_append_of_le_length hlength] at h
  refine ⟨hwhole, ?_⟩
  rw [List.drop_append_of_le_length hlength]
  refine fraction_front ?_
  rw [List.length_tail, List.length_drop]
  split at h
  · rename_i hempty
    rw [List.isEmpty_iff.mp hempty]
    exact Nat.zero_le _
  · omega

/-- A number is the same if the source ends behind it. -/
theorem number_lexeme_front (h : numberLexeme (front ++ back) = .ok found)
    (hwidth : found.width ≤ front.length) : numberLexeme front = .ok found := by
  have hdigits := length_digits_le_width h
  -- The digits are the same, and within the front.
  obtain ⟨hwhole, hfraction⟩ := digits_front (Nat.le_trans hdigits hwidth)
  rw [hwhole, hfraction] at hdigits
  unfold numberLexeme at h ⊢
  dsimp only at h ⊢
  rw [hwhole, hfraction, ← pointed] at h
  rw [← pointed]
  generalize fraction (front.drop (front.takeWhile isAsciiDigit).length) = fractional at h hdigits ⊢
  generalize pointed (front.takeWhile isAsciiDigit) fractional = digits at h hdigits ⊢
  have hwithin : digits.length ≤ front.length := Nat.le_trans hdigits hwidth
  rw [List.drop_append_of_le_length hwithin] at h
  -- So is the letter that may follow them.
  by_cases hsuffix : (decide ((front.drop digits.length ++ back).head? = some 'j') ||
      decide ((front.drop digits.length ++ back).head? = some 'J')) = true
  · simp only [if_pos hsuffix] at h
    split at h
    · cases h
    rename_i hname
    obtain rfl := Except.ok.inj h
    have hsame : (front.drop digits.length ++ back).head? = (front.drop digits.length).head? := by
      have hlong : front.drop digits.length ≠ [] := by
        rw [Ne, List.drop_eq_nil_iff]
        dsimp only at hwidth
        omega
      obtain ⟨c, rest, hrest⟩ := List.exists_cons_of_ne_nil hlong
      rw [hrest]
      rfl
    rw [hsame] at hsuffix
    rw [Bool.not_eq_true, List.drop_append_of_le_length hwidth] at hname
    simp only [if_pos hsuffix, any_head_front hname, Bool.false_eq_true, if_false]
  · have hsuffix' : ¬(decide ((front.drop digits.length).head? = some 'j') ||
        decide ((front.drop digits.length).head? = some 'J')) = true := by
      simp only [Bool.or_eq_true, decide_eq_true_eq, not_or] at hsuffix ⊢
      exact ⟨fun hj => hsuffix.1 (head_front hj back), fun hj => hsuffix.2 (head_front hj back)⟩
    simp only [if_neg hsuffix, Nat.add_zero] at h
    simp only [if_neg hsuffix', Nat.add_zero]
    rw [List.drop_append_of_le_length hwithin] at h
    split at h
    · cases h
    · rename_i hname
      rw [Bool.not_eq_true] at hname
      rw [any_head_front hname, if_neg Bool.false_ne_true]
      exact h

/-! ## Words and symbols -/

theorem word_lexeme_front (h : (wordLexeme (front ++ back)).width ≤ front.length) :
    wordLexeme (front ++ back) = wordLexeme front := by
  unfold wordLexeme at h ⊢
  rw [take_while_front h]

theorem SymbolOf.in_front {c : Char} (h : SymbolOf c (front ++ back) found)
    (hwidth : found.width ≤ front.length + 1) : SymbolOf c front found := by
  generalize hsource : front ++ back = source at h
  cases h with
  | double hdouble =>
      cases front with
      | nil => exact absurd hwidth (Nat.not_succ_le_self 1)
      | cons d rest =>
          obtain ⟨rfl, rfl⟩ := List.cons.inj hsource
          exact .double hdouble
  | single hdouble hkind =>
      subst hsource
      refine .single ?_ hkind
      cases front with
      | nil => exact single_not_double c
      | cons d rest => exact hdouble

/-! ## All classes -/

/-- What a source starts with is in its front, if that is long enough. -/
theorem exists_front {text after : List Char} (h : front ++ back = text ++ after)
    (hlength : text.length ≤ front.length) : ∃ rest, front = text ++ rest := by
  have htext : text <+: front ++ back := h ▸ List.prefix_append text after
  have hfront : front <+: front ++ back := List.prefix_append front back
  obtain ⟨rest, hrest⟩ := List.prefix_of_prefix_length_le htext hfront hlength
  exact ⟨rest, hrest.symm⟩

/-- A token is the same if the source ends behind it. -/
theorem lexeme_front {c : Char} (h : lexeme c (front ++ back) = .ok found)
    (hwidth : found.width ≤ front.length + 1) : lexeme c front = .ok found := by
  rw [lexeme_iff] at h ⊢
  generalize hsource : front ++ back = source at h
  cases h with
  | @string body after hbody =>
      have hquoted : front ++ back = (body ++ ['"']) ++ after := by
        rw [hsource, List.append_assoc]
        rfl
      have hlength : (body ++ ['"']).length ≤ front.length := by
        rw [List.length_append]
        exact Nat.le_of_succ_le_succ hwidth
      obtain ⟨rest, rfl⟩ := exists_front hquoted hlength
      rw [List.append_assoc]
      exact .string hbody
  | @bytes body after hbody hascii =>
      have hquoted : front ++ back = ('"' :: (body ++ ['"'])) ++ after := by
        rw [hsource, List.cons_append, List.append_assoc]
        rfl
      have hlength : ('"' :: (body ++ ['"'])).length ≤ front.length := by
        rw [List.length_cons, List.length_append]
        exact Nat.le_of_succ_le_succ hwidth
      obtain ⟨rest, rfl⟩ := exists_front hquoted hlength
      rw [List.cons_append, List.append_assoc]
      exact .bytes hbody hascii
  | number hdigit hnumber =>
      subst hsource
      exact .number hdigit (number_lexeme_front hnumber hwidth)
  | word hquote hbytes hdigit hstart =>
      subst hsource
      rw [← List.cons_append] at hwidth ⊢
      rw [word_lexeme_front hwidth]
      refine .word hquote (fun hboth => hbytes ⟨hboth.1, ?_⟩) hdigit hstart
      exact head_front hboth.2 back
  | symbol hquote hdigit hstart hsymbol =>
      subst hsource
      exact .symbol hquote hdigit hstart (hsymbol.in_front hwidth)

end Script.Token
