import Mathlib.Algebra.Group.Nat.Defs
import Script.Token.Lexer

/-!
# Writing and reading numbers

The decimal digits of a number are read back as that number, and a number has few digits if it is
small.
-/

namespace Script.Number

/-- Digits in front of some text are digits followed by that text. -/
theorem digits_before_eq (n : Nat) (after : List Char) :
    digitsBefore n after = decimalDigits n ++ after := by
  unfold decimalDigits
  induction n using Nat.strongRecOn generalizing after with
  | ind n ih =>
      rw [digitsBefore, digitsBefore.eq_1 n []]
      split
      · rfl
      · have hless : n / 10 < n := by omega
        rw [ih _ hless, ih _ hless [digitChar (n % 10)], List.append_assoc]
        rfl

/-- A number below ten has one digit. -/
theorem decimal_digits_of_lt {n : Nat} (h : n < 10) : decimalDigits n = [digitChar n] := by
  unfold decimalDigits
  rw [digitsBefore, if_pos h]

/-- The last digit of a larger number is its remainder by ten. -/
theorem decimal_digits_of_le {n : Nat} (h : 10 ≤ n) :
    decimalDigits n = decimalDigits (n / 10) ++ [digitChar (n % 10)] := by
  have hnot : ¬n < 10 := by omega
  conv => lhs; unfold decimalDigits
  rw [digitsBefore, if_neg hnot, digits_before_eq]

/-- A digit stands for the number below ten that it was made from. -/
theorem digit_char_spec {n : Nat} (h : n < 10) :
    Token.isAsciiDigit (digitChar n) = true ∧ (digitChar n).toNat - '0'.toNat = n := by
  revert n
  decide

/-- Every character of a written number is a digit. -/
theorem all_digits (n : Nat) : ∀ c ∈ decimalDigits n, Token.isAsciiDigit c = true := by
  induction n using Nat.strongRecOn with
  | ind n ih =>
      by_cases h : n < 10
      · rw [decimal_digits_of_lt h]
        intro c hc
        rw [List.mem_singleton.mp hc]
        exact (digit_char_spec h).1
      · rw [decimal_digits_of_le (by omega)]
        intro c hc
        rcases List.mem_append.mp hc with hc | hc
        · exact ih (n / 10) (by omega) c hc
        · rw [List.mem_singleton.mp hc]
          exact (digit_char_spec (Nat.mod_lt n (by omega))).1

/-- A written number is not empty. -/
theorem decimal_digits_ne_nil (n : Nat) : decimalDigits n ≠ [] := by
  by_cases h : n < 10
  · rw [decimal_digits_of_lt h]
    exact List.cons_ne_nil _ _
  · rw [decimal_digits_of_le (by omega)]
    exact List.append_ne_nil_of_right_ne_nil _ (List.cons_ne_nil _ _)

/-- Reading one more digit. -/
theorem of_digits_append_singleton (digits : List Char) (c : Char) :
    ofDigits (digits ++ [c]) = ofDigits digits * 10 + (c.toNat - '0'.toNat) := by
  unfold ofDigits
  rw [List.foldl_append]
  rfl

/-- A written number is read back. -/
theorem of_digits_decimal_digits (n : Nat) : ofDigits (decimalDigits n) = n := by
  induction n using Nat.strongRecOn with
  | ind n ih =>
      by_cases h : n < 10
      · rw [decimal_digits_of_lt h, ← List.nil_append [digitChar n], of_digits_append_singleton,
          (digit_char_spec h).2]
        exact Nat.zero_add n
      · have hlast : n % 10 < 10 := Nat.mod_lt n (by omega)
        rw [decimal_digits_of_le (by omega), of_digits_append_singleton,
          ih (n / 10) (by omega), (digit_char_spec hlast).2]
        omega

/-- A number below a power of ten has no more digits than that power has zeros. -/
theorem length_decimal_digits_le {n places : Nat} (h : n < 10 ^ (places + 1)) :
    (decimalDigits n).length ≤ places + 1 := by
  induction places generalizing n with
  | zero =>
      rw [decimal_digits_of_lt (by omega)]
      exact Nat.le_refl 1
  | succ places ih =>
      by_cases hsmall : n < 10
      · rw [decimal_digits_of_lt hsmall]
        exact Nat.succ_le_succ (Nat.zero_le _)
      · have hless : n / 10 < 10 ^ (places + 1) := by
          rw [Nat.div_lt_iff_lt_mul (by omega), ← Nat.pow_succ]
          exact h
        rw [decimal_digits_of_le (by omega), List.length_append]
        exact Nat.succ_le_succ (ih hless)

end Script.Number
