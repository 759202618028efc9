import Script.Number.Reading
import Script.Proofs.Number.Digits
import Script.Text.Blank

/-!
# Reading integers

The digits of a number are read as that number, whatever zeros stand in front of them, and the
decimal text of an integer as that integer (`read_decimal_text`), if there are not too many digits.
-/

namespace Script

/-- Nothing is trimmed from a text that holds nothing to be dropped. -/
theorem Text.trim_by_eq_self {drop : Char → Bool} {text : List Char}
    (h : ∀ c ∈ text, drop c = false) : trimBy drop text = text := by
  have hkept {text : List Char} (h : ∀ c ∈ text, drop c = false) : text.dropWhile drop = text := by
    cases text with
    | nil => rfl
    | cons c rest => exact List.dropWhile_cons_of_neg (by simp [h c List.mem_cons_self])
  unfold trimBy trimLeftBy trimRightBy
  rw [hkept h, hkept (fun c hc => h c (List.mem_reverse.mp hc)), List.reverse_reverse]

namespace Number

-- Powers are those of the core library, whatever other instances are in scope.
attribute [local instance (high)] instPowNat

/-! ## Digits -/

/-- A digit is the character of a number below ten. -/
theorem exists_digit_char {c : Char} (h : Token.isAsciiDigit c = true) :
    ∃ n < 10, c = digitChar n := by
  obtain ⟨hlow, hhigh⟩ := Bool.and_eq_true_iff.mp h
  have hzero : 48 ≤ c.toNat := UInt32.le_iff_toNat_le.mp (Char.le_def.mp (of_decide_eq_true hlow))
  have hnine : c.toNat ≤ 57 := UInt32.le_iff_toNat_le.mp (Char.le_def.mp (of_decide_eq_true hhigh))
  refine ⟨c.toNat - 48, by omega, ?_⟩
  have hcode : '0'.toNat + (c.toNat - 48) = c.toNat := by
    show 48 + (c.toNat - 48) = c.toNat
    omega
  rw [digitChar, hcode, Char.ofNat_toNat]

/-- What the digit of a number is to those who read it. -/
theorem digit_char_reads {n : Nat} (h : n < 10) :
    Text.isBlank (digitChar n) = false ∧ Text.decimalValue? (digitChar n) = some n ∧
      digitValue? (digitChar n) = some n ∧ digitChar n ≠ '_' ∧ digitChar n ≠ '-' ∧
      digitChar n ≠ '+' := by
  revert n
  decide

variable {digits : List Char} (hdigits : ∀ c ∈ digits, Token.isAsciiDigit c = true)

include hdigits

theorem ascii_digits_eq_self : asciiDigits digits = digits := by
  refine (List.map_congr_left fun c hc => ?_).trans (List.map_id digits)
  obtain ⟨n, hn, rfl⟩ := exists_digit_char (hdigits c hc)
  rw [(digit_char_reads hn).2.1]
  rfl

/-- Without underscores, the digits of a number are read one by one. -/
theorem digits_in_ten {afterDigit : Bool} (h : afterDigit = true ∨ digits ≠ []) :
    digitsIn 10 afterDigit digits = some (digits.map fun c => c.toNat - '0'.toNat) := by
  induction digits generalizing afterDigit with
  | nil =>
      obtain rfl := h.resolve_right fun hne => hne rfl
      rfl
  | cons c rest ih =>
      obtain ⟨n, hn, rfl⟩ := exists_digit_char (hdigits c List.mem_cons_self)
      obtain ⟨-, -, hvalue, hunderscore, -⟩ := digit_char_reads hn
      have hrest := ih (fun d hd => hdigits d (List.mem_cons_of_mem _ hd)) (.inl rfl)
      rw [digitsIn.eq_3 _ _ _ _ hunderscore, hvalue]
      dsimp only
      rw [if_pos hn, hrest, List.map_cons, (digit_char_spec hn).2]
      rfl

theorem cut_sign_digits (hne : digits ≠ []) : cutSign digits = (false, digits) := by
  obtain ⟨c, rest, rfl⟩ := List.exists_cons_of_ne_nil hne
  obtain ⟨n, hn, rfl⟩ := exists_digit_char (hdigits c List.mem_cons_self)
  obtain ⟨-, -, -, -, hminus, hplus⟩ := digit_char_reads hn
  unfold cutSign
  split
  · rename_i heq
    exact absurd (List.cons.inj heq).1 hminus
  · rename_i heq
    exact absurd (List.cons.inj heq).1 hplus
  · rfl

omit hdigits in
/-- The prefix of another base is none in base ten. -/
theorem cut_base_ten (text : List Char) : cutBase 10 text = (10, text) := by
  have hannounced : announcedBase? text ≠ some 10 := by
    unfold announcedBase?
    split <;> simp
  unfold cutBase
  split
  · rename_i announced hbase
    rw [if_neg]
    intro hten
    have hsame : 10 = announced := by simpa using hten
    exact hannounced (hbase.trans (congrArg some hsame.symm))
  · rfl

omit hdigits in
theorem digits_value_ten (digits : List Char) :
    digitsValue 10 (digits.map fun c => c.toNat - '0'.toNat) = ofDigits digits := by
  rw [digitsValue, List.foldl_map]
  rfl

/-- Digits that are not too many are read as their number, with the sign in front of them. -/
theorem read_digits (hne : digits ≠ []) (hlength : digits.length ≤ maxTextDigits) {text : List Char}
    {negative : Bool} (hsign : cutSign (asciiDigits text) = (negative, digits)) :
    readInt? 10 text =
      some (if negative then -(ofDigits digits : Int) else ofDigits digits) := by
  have hfew : (decide (maxTextDigits < (digits.map fun c => c.toNat - '0'.toNat).length) &&
      !isBinaryBase 10) = false := by
    rw [List.length_map, decide_eq_false (Nat.not_lt.mpr hlength), Bool.false_and]
  have hread : digitsIn 10 false digits = some (digits.map fun c => c.toNat - '0'.toNat) :=
    digits_in_ten hdigits (.inr hne)
  have hcut : cutBase (Int.toNat 10) digits = (10, digits) := cut_base_ten digits
  have hbase : (decide ((10 : Int) = 0) && (announcedBase? digits).isNone &&
      decide ((digits.map fun c => c.toNat - '0'.toNat).head? = some 0) &&
      decide (digitsValue 10 (digits.map fun c => c.toNat - '0'.toNat) ≠ 0)) = false := by
    rw [decide_eq_false (by decide), Bool.false_and, Bool.false_and, Bool.false_and]
  unfold readInt?
  rw [if_neg (by decide), hsign]
  dsimp only
  rw [hcut]
  dsimp only
  rw [hread, Option.bind_eq_bind, Option.bind_some, hfew, hbase, digits_value_ten]
  rfl

omit hdigits

/-- Zeros in front of digits do not count. -/
theorem of_digits_zeros (zeros : Nat) (digits : List Char) :
    ofDigits (List.replicate zeros '0' ++ digits) = ofDigits digits := by
  induction zeros with
  | zero => rfl
  | succ zeros ih =>
      rw [List.replicate_succ, List.cons_append]
      exact ih

/-! ## Decimal texts -/

/-- A number is below the power of ten that has a zero for each of its digits. -/
theorem lt_pow_length (n : Nat) : n < 10 ^ (decimalDigits n).length := by
  induction n using Nat.strongRecOn with
  | ind n ih =>
      by_cases hsmall : n < 10
      · rw [decimal_digits_of_lt hsmall]
        exact hsmall
      · have hfront := ih (n / 10) (by omega)
        rw [decimal_digits_of_le (Nat.not_lt.mp hsmall), List.length_append, List.length_singleton,
          Nat.pow_succ]
        omega

/-- An integer of not too many digits has a text. -/
theorem text_eq {n : Int} (h : (decimalDigits n.natAbs).length ≤ maxTextDigits) :
    text? n = some (decimalText n) :=
  if_pos (Nat.lt_of_lt_of_le (lt_pow_length n.natAbs) (Nat.pow_le_pow_right (by decide) h))

/-- The digits of a decimal text, and the text in terms of them. -/
theorem decimal_text_eq (n : Int) :
    (decimalText n).toList =
      if n < 0 then '-' :: decimalDigits n.natAbs else decimalDigits n.natAbs := by
  cases n with
  | ofNat m =>
      have hnonneg : ¬Int.ofNat m < 0 := Int.not_lt.mpr (Int.natCast_nonneg m)
      rw [if_neg hnonneg]
      exact String.toList_ofList
  | negSucc m =>
      rw [if_pos (Int.negSucc_lt_zero m)]
      exact String.toList_ofList

theorem decimal_text_solid (n : Int) : ∀ c ∈ (decimalText n).toList, Text.isBlank c = false := by
  have hsolid : ∀ c ∈ decimalDigits n.natAbs, Text.isBlank c = false := by
    intro c hc
    obtain ⟨digit, hdigit, rfl⟩ := exists_digit_char (all_digits n.natAbs c hc)
    exact (digit_char_reads hdigit).1
  rw [decimal_text_eq]
  split
  · exact List.forall_mem_cons.mpr ⟨by decide, hsolid⟩
  · exact hsolid

/-- The decimal text of an integer of not too many digits is read as this integer. -/
theorem read_decimal_text {n : Int} (h : (decimalDigits n.natAbs).length ≤ maxTextDigits) :
    readInt? 10 (decimalText n).toList = some n := by
  have hdigits := all_digits n.natAbs
  have hne := decimal_digits_ne_nil n.natAbs
  have hread {text : List Char} {negative : Bool}
      (hsign : cutSign (asciiDigits text) = (negative, decimalDigits n.natAbs)) :
      readInt? 10 text = some (if negative then -(n.natAbs : Int) else n.natAbs) := by
    rw [read_digits hdigits hne h hsign, of_digits_decimal_digits]
  rw [decimal_text_eq]
  split
  · rename_i hnegative
    have hascii : asciiDigits ('-' :: decimalDigits n.natAbs) = '-' :: decimalDigits n.natAbs :=
      congrArg ('-' :: ·) (ascii_digits_eq_self hdigits)
    have hsign : cutSign (asciiDigits ('-' :: decimalDigits n.natAbs)) =
        (true, decimalDigits n.natAbs) := by
      rw [hascii]
      rfl
    rw [hread hsign, if_pos rfl]
    exact congrArg some (by omega)
  · rename_i hnonneg
    have hsign : cutSign (asciiDigits (decimalDigits n.natAbs)) =
        (false, decimalDigits n.natAbs) := by
      rw [ascii_digits_eq_self hdigits, cut_sign_digits hdigits hne]
    rw [hread hsign, if_neg Bool.false_ne_true]
    exact congrArg some (by omega)

end Number

end Script
