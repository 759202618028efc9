import Mathlib.Algebra.Order.Ring.Int
import Mathlib.Data.Nat.Bitwise
import Script.Number.Bitwise

/-!
# Bits of integers

An integer of either sign is a row of bits without end: the bit at a place says whether the integer
is odd once so many bits have been dropped. Two integers with the same bits are the same
(`eq_of_bits`), the operators on bits work place by place (`bit_and`, `bit_or`, `bit_xor`,
`bit_complement`), and a sum is what the bits of its summands make without and with a carry
(`xor_add_twice_and`).
-/

namespace Script.Number

/-- The bit of an integer at a place, counted from the lowest. -/
def bit (n : Int) (place : Nat) : Bool :=
  n / 2 ^ place % 2 = 1

/-! ## The bits of an integer -/

theorem bit_of_nat (n place : Nat) : bit n place = n.testBit place := by
  have hquotient : (n : Int) / 2 ^ place % 2 = ((n / 2 ^ place % 2 : Nat) : Int) := by
    push_cast
    rfl
  rw [bit, Nat.testBit_eq_decide_div_mod_eq, hquotient]
  exact decide_eq_decide.mpr (by omega)

/-- Dropping bits and flipping bits can be done in any order. -/
theorem complement_ediv (n : Int) (place : Nat) :
    complement n / 2 ^ place = complement (n / 2 ^ place) := by
  have hpower : (0 : Int) < 2 ^ place := Int.pow_pos (by decide)
  unfold complement
  have hrest := Int.emod_nonneg n hpower.ne'
  have hrest' := Int.emod_lt_of_pos n hpower
  have hsplit := Int.mul_ediv_add_emod n (2 ^ place)
  refine ((Int.ediv_emod_unique (r := 2 ^ place - 1 - n % 2 ^ place) hpower).mpr
    ⟨?_, by omega, by omega⟩).1
  rw [Int.mul_sub, Int.mul_neg]
  omega

theorem bit_complement (n : Int) (place : Nat) : bit (complement n) place = !bit n place := by
  unfold bit
  rw [complement_ediv, complement, ← decide_not]
  exact decide_eq_decide.mpr (by omega)

theorem neg_succ_eq (n : Nat) : Int.negSucc n = complement n := by
  rw [Int.negSucc_eq, complement]
  omega

theorem bit_neg_succ (n place : Nat) : bit (.negSucc n) place = !n.testBit place := by
  rw [neg_succ_eq, bit_complement, bit_of_nat]

/-- A natural number and a negative integer differ at a high place. -/
theorem exists_bit_ne (m n : Nat) : ∃ place, bit m place ≠ bit (.negSucc n) place := by
  refine ⟨max m n, ?_⟩
  have hm : m < 2 ^ max m n :=
    (Nat.lt_two_pow_self).trans_le (Nat.pow_le_pow_right (by omega) (le_max_left m n))
  have hn : n < 2 ^ max m n :=
    (Nat.lt_two_pow_self).trans_le (Nat.pow_le_pow_right (by omega) (le_max_right m n))
  rw [bit_of_nat, bit_neg_succ, Nat.testBit_lt_two_pow hm, Nat.testBit_lt_two_pow hn]
  decide

/-- Integers with the same bits are the same. -/
theorem eq_of_bits {a b : Int} (h : ∀ place, bit a place = bit b place) : a = b := by
  cases a with
  | ofNat m =>
      cases b with
      | ofNat n =>
          refine congrArg _ (Nat.eq_of_testBit_eq fun place => ?_)
          rw [← bit_of_nat, ← bit_of_nat]
          exact h place
      | negSucc n =>
          obtain ⟨place, hne⟩ := exists_bit_ne m n
          exact absurd (h place) hne
  | negSucc m =>
      cases b with
      | ofNat n =>
          obtain ⟨place, hne⟩ := exists_bit_ne n m
          exact absurd (h place).symm hne
      | negSucc n =>
          refine congrArg _ (Nat.eq_of_testBit_eq fun place => ?_)
          have hplace := h place
          rw [bit_neg_succ, bit_neg_succ] at hplace
          exact Bool.not_inj hplace

/-! ## Operators place by place -/

theorem test_bit_clear_bits (m n place : Nat) :
    (clearBits m n).testBit place = (m.testBit place && !n.testBit place) := by
  rw [clearBits, Nat.testBit_xor, Nat.testBit_and]
  cases m.testBit place <;> cases n.testBit place <;> rfl

theorem bit_and (a b : Int) (place : Nat) :
    bit (bitAnd a b) place = (bit a place && bit b place) := by
  cases a <;> cases b <;>
    simp only [bitAnd, Int.ofNat_eq_natCast, bit_of_nat, bit_neg_succ, test_bit_clear_bits,
      Nat.testBit_and, Nat.testBit_or, Bool.not_or, Bool.and_comm]

theorem bit_or (a b : Int) (place : Nat) :
    bit (bitOr a b) place = (bit a place || bit b place) := by
  cases a <;> cases b <;>
    simp only [bitOr, Int.ofNat_eq_natCast, bit_of_nat, bit_neg_succ, test_bit_clear_bits,
      Nat.testBit_and, Nat.testBit_or, Bool.not_and, Bool.not_not, Bool.or_comm]

theorem bit_xor (a b : Int) (place : Nat) :
    bit (bitXor a b) place = (bit a place != bit b place) := by
  cases a <;> cases b <;>
    simp only [bitXor, Int.ofNat_eq_natCast, bit_of_nat, bit_neg_succ, Nat.testBit_xor] <;>
    cases Nat.testBit _ place <;> cases Nat.testBit _ place <;> rfl

/-- What not both integers have, one of them lacks. -/
theorem complement_and (a b : Int) :
    complement (bitAnd a b) = bitOr (complement a) (complement b) := by
  refine eq_of_bits fun place => ?_
  rw [bit_complement, bit_and, bit_or, bit_complement, bit_complement, Bool.not_and]

/-! ## Sums -/

/-- Adding naturals: the bits that one of them has, and twice those that both have. -/
theorem nat_xor_add_twice_and (m n : Nat) : (m ^^^ n) + 2 * (m &&& n) = m + n := by
  induction m using Nat.strongRecOn generalizing n with
  | ind m ih =>
      obtain rfl | hpos := Nat.eq_zero_or_pos m
      · simp
      · have hhalf := ih (m / 2) (by omega) (n / 2)
        rw [← Nat.xor_div_two, ← Nat.and_div_two] at hhalf
        have hxor := Nat.xor_mod_two_eq (m := m) (n := n)
        have hand := Nat.and_mod_two_eq_one (a := m) (b := n)
        omega

/-- Bits that do not overlap are put together by adding. -/
theorem or_eq_xor_add_and (m n : Nat) : m ||| n = (m ^^^ n) + (m &&& n) := by
  have hsum := nat_xor_add_twice_and (m ^^^ n) (m &&& n)
  have hapart : (m ^^^ n) &&& (m &&& n) = 0 := by
    refine Nat.eq_of_testBit_eq fun place => ?_
    simp only [Nat.testBit_and, Nat.testBit_xor, Nat.zero_testBit]
    cases m.testBit place <;> cases n.testBit place <;> rfl
  have hjoined : (m ^^^ n) ^^^ (m &&& n) = m ||| n := by
    refine Nat.eq_of_testBit_eq fun place => ?_
    simp only [Nat.testBit_and, Nat.testBit_xor, Nat.testBit_or]
    cases m.testBit place <;> cases n.testBit place <;> rfl
  rw [hapart, hjoined] at hsum
  omega

theorem clear_bits_add_and (m n : Nat) : clearBits m n + (m &&& n) = m := by
  have hsum := nat_xor_add_twice_and (clearBits m n) (m &&& n)
  have hapart : clearBits m n &&& (m &&& n) = 0 := by
    refine Nat.eq_of_testBit_eq fun place => ?_
    rw [Nat.testBit_and, test_bit_clear_bits, Nat.testBit_and, Nat.zero_testBit]
    cases m.testBit place <;> cases n.testBit place <;> rfl
  have hjoined : clearBits m n ^^^ (m &&& n) = m := by
    refine Nat.eq_of_testBit_eq fun place => ?_
    rw [Nat.testBit_xor, test_bit_clear_bits, Nat.testBit_and]
    cases m.testBit place <;> cases n.testBit place <;> rfl
  rw [hapart, hjoined] at hsum
  omega

/-- The sum of two integers: the bits that one of them has, and twice those that both have. -/
theorem xor_add_twice_and (a b : Int) : bitXor a b + 2 * bitAnd a b = a + b := by
  cases a with
  | ofNat m =>
      cases b with
      | ofNat n =>
          have hsum := nat_xor_add_twice_and m n
          simp only [bitXor, bitAnd, Int.ofNat_eq_natCast]
          omega
      | negSucc n =>
          have hsum := nat_xor_add_twice_and m n
          have hclear := clear_bits_add_and m n
          simp only [bitXor, bitAnd, Int.ofNat_eq_natCast, Int.negSucc_eq]
          omega
  | negSucc m =>
      cases b with
      | ofNat n =>
          have hsum := nat_xor_add_twice_and m n
          have hclear := clear_bits_add_and n m
          rw [Nat.and_comm n m] at hclear
          simp only [bitXor, bitAnd, Int.ofNat_eq_natCast, Int.negSucc_eq]
          omega
      | negSucc n =>
          have hsum := nat_xor_add_twice_and m n
          have hor := or_eq_xor_add_and m n
          simp only [bitXor, bitAnd, Int.ofNat_eq_natCast, Int.negSucc_eq]
          omega

/-! ## Shifts -/

/-- Moving bits to the right divides by a power of two and rounds down, however far they are
moved. -/
theorem shift_right_eq (n : Int) (places : Nat) : shiftRight n places = n / 2 ^ places := by
  have hpower : (0 : Int) < 2 ^ places := Int.pow_pos (by decide)
  unfold shiftRight
  split
  · rename_i hshort
    have hsmall : n.natAbs < 2 ^ places :=
      Nat.lt_log2_self.trans_le (Nat.pow_le_pow_right (by omega) hshort)
    have hsmall' : (n.natAbs : Int) < 2 ^ places := by exact_mod_cast hsmall
    split
    · refine ((Int.ediv_emod_unique (r := n + 2 ^ places) hpower).mpr ⟨?_, ?_, ?_⟩).1.symm <;>
        omega
    · exact (Int.ediv_eq_zero_of_lt (by omega) (by omega)).symm
  · exact Int.fdiv_eq_ediv_of_nonneg n hpower.le

end Script.Number
