import Mathlib
import Script.Number.Numeric

/-!
# The numbers that doubles stand for

A double stands for a quotient of integers or is infinite, unless it is not a number. Two numbers
of the language, of whatever sorts, are equal exactly if they stand for the same number:
`Numeric.equal_iff`. So equality of numbers is symmetric and transitive across the sorts, although
each pair of sorts is compared in a way of its own.
-/

namespace Script.Number

open Float.Model (UnpackedFloat)
open Float.Model.UnpackedFloat (Sign)


/-- A number without rounding: a quotient of integers, or infinite. -/
inductive Exact where
  | finite (value : ℚ)
  | infinite (sign : Sign)

/-- The parts are those of a double: the integer has 53 bits unless the exponent is the least. -/
structure Binary64.Canonical (parts : Binary64) : Prop where
  significand_lt : parts.significand < 2 ^ 53
  exponent_ge : minExponent ≤ parts.exponent
  full : minExponent < parts.exponent → 2 ^ 52 ≤ parts.significand

namespace Binary64

/-- The magnitude that parts stand for. -/
def magnitude (parts : Binary64) : ℚ :=
  parts.significand * 2 ^ parts.exponent

/-- The number that parts stand for. -/
def value (parts : Binary64) : ℚ :=
  if parts.negative then -parts.magnitude else parts.magnitude

theorem magnitude_eq_zero_iff (parts : Binary64) : parts.magnitude = 0 ↔ parts.significand = 0 := by
  simp [magnitude, zpow_ne_zero]

/-- The double with the smaller exponent would need more than 53 bits. -/
theorem Canonical.exponent_le {first second : Binary64} (h : first.Canonical)
    (h' : second.Canonical) (hmagnitude : first.magnitude = second.magnitude) :
    second.exponent ≤ first.exponent := by
  by_contra hlt
  rw [not_le] at hlt
  have hfull : 2 ^ 52 ≤ second.significand := h'.full (lt_of_le_of_lt h.exponent_ge hlt)
  obtain ⟨gap, hgap⟩ : ∃ gap : Nat, second.exponent = first.exponent + (gap + 1 : Nat) :=
    ⟨(second.exponent - first.exponent - 1).toNat, by omega⟩
  have hscaled : first.significand = second.significand * 2 ^ (gap + 1) := by
    unfold magnitude at hmagnitude
    rw [hgap, zpow_add₀ two_ne_zero, zpow_natCast, mul_left_comm, mul_comm] at hmagnitude
    exact_mod_cast mul_left_cancel₀ (zpow_ne_zero _ two_ne_zero) hmagnitude
  have hbound := h.significand_lt
  have htwice : second.significand * 2 ≤ second.significand * 2 ^ (gap + 1) :=
    Nat.mul_le_mul_left _ (Nat.le_self_pow (Nat.succ_ne_zero gap) 2)
  omega

/-- A magnitude has only one integer and exponent as a double. -/
theorem Canonical.unique {first second : Binary64} (h : first.Canonical) (h' : second.Canonical)
    (hmagnitude : first.magnitude = second.magnitude) :
    first.exponent = second.exponent ∧ first.significand = second.significand := by
  have hexponent : first.exponent = second.exponent :=
    le_antisymm (h'.exponent_le h hmagnitude.symm) (h.exponent_le h' hmagnitude)
  refine ⟨hexponent, ?_⟩
  unfold magnitude at hmagnitude
  rw [hexponent] at hmagnitude
  exact_mod_cast mul_right_cancel₀ (zpow_ne_zero _ two_ne_zero) hmagnitude

theorem magnitude_nonneg (parts : Binary64) : 0 ≤ parts.magnitude :=
  mul_nonneg (Nat.cast_nonneg _) (zpow_nonneg two_pos.le _)

theorem value_eq_zero_iff (parts : Binary64) : parts.value = 0 ↔ parts.significand = 0 := by
  unfold value
  split
  · rw [neg_eq_zero, magnitude_eq_zero_iff]
  · exact magnitude_eq_zero_iff parts

/-- Doubles other than zero that stand for the same number have the same parts. -/
theorem Canonical.value_eq_iff {first second : Binary64} (h : first.Canonical)
    (h' : second.Canonical) (hne : first.significand ≠ 0) :
    first.value = second.value ↔
      first.negative = second.negative ∧ first.exponent = second.exponent ∧
        first.significand = second.significand := by
  have hpos : 0 < first.magnitude :=
    lt_of_le_of_ne first.magnitude_nonneg (Ne.symm (mt (magnitude_eq_zero_iff first).mp hne))
  have hnonneg := second.magnitude_nonneg
  constructor
  · intro hvalue
    have hsign : first.negative = second.negative ∧ first.magnitude = second.magnitude := by
      unfold value at hvalue
      cases hfirst : first.negative <;> cases hsecond : second.negative <;>
        simp only [hfirst, hsecond, if_true, Bool.false_eq_true, if_false] at hvalue
      · exact ⟨rfl, hvalue⟩
      · linarith
      · linarith
      · exact ⟨rfl, neg_injective hvalue⟩
    exact ⟨hsign.1, h.unique h' hsign.2⟩
  · rintro ⟨hnegative, hexponent, hsignificand⟩
    simp only [value, magnitude, hnegative, hexponent, hsignificand]

end Binary64

/-! ## The parts of a double -/

/-- The double with its parts taken apart. -/
def unpacked (x : Float) : UnpackedFloat :=
  x.toModel.unpack

/-- The sign bit as a sign. -/
def signOf (negative : Bool) : Sign :=
  if negative then .negative else .positive

section Bits

open Float.Model

variable (x : Float)

/-- The bits that hold the exponent. -/
def exponentVec : BitVec 11 :=
  @UnpackedFloat.unpackExponent .binary64 x.toModel.toBits.toBitVec

/-- The bits that hold the fraction. -/
def fractionVec : BitVec 52 :=
  @UnpackedFloat.unpackMantissa .binary64 x.toModel.toBits.toBitVec

theorem exponentVec_toNat : (exponentVec x).toNat = x.toBits.toNat / 2 ^ 52 % 2 ^ 11 := by
  simp [exponentVec, UnpackedFloat.unpackExponent, Float.toBits, Nat.shiftRight_eq_div_pow]

theorem fractionVec_toNat : (fractionVec x).toNat = x.toBits.toNat % 2 ^ 52 := by
  simp [fractionVec, UnpackedFloat.unpackMantissa, Float.toBits, Nat.shiftRight_eq_div_pow]

/-- Exponents that are all ones are kept for what is not finite. -/
theorem exponentVec_eq_ones_iff :
    exponentVec x = -1#_ ↔ x.toBits.toNat / 2 ^ 52 % 2 ^ 11 = 2047 := by
  rw [← BitVec.toNat_inj, exponentVec_toNat]
  rfl

theorem exponentVec_eq_zero_iff :
    exponentVec x = 0#_ ↔ x.toBits.toNat / 2 ^ 52 % 2 ^ 11 = 0 := by
  rw [← BitVec.toNat_inj, exponentVec_toNat]
  rfl

theorem fractionVec_eq_zero_iff : fractionVec x = 0#_ ↔ x.toBits.toNat % 2 ^ 52 = 0 := by
  rw [← BitVec.toNat_inj, fractionVec_toNat]
  rfl

/-- The fraction with the bit before it that is not held. -/
theorem full_fraction_toNat :
    (1#1 ++ fractionVec x).toNat = x.toBits.toNat % 2 ^ 52 + 2 ^ 52 := by
  have hsmall : x.toBits.toNat % 2 ^ 52 < 2 ^ 52 := Nat.mod_lt _ (by decide)
  rw [BitVec.toNat_append, fractionVec_toNat, ← Nat.shiftLeft_add_eq_or_of_lt hsmall, Nat.add_comm]
  rfl

/-- The sign is the first bit. -/
theorem sign_eq :
    Sign.ofBitVec (@UnpackedFloat.unpackSign .binary64 x.toModel.toBits.toBitVec) =
      signOf (x.toBits.toNat / 2 ^ 63 == 1) := by
  have hbit : (@UnpackedFloat.unpackSign .binary64 x.toModel.toBits.toBitVec).toNat =
      x.toBits.toNat / 2 ^ 63 % 2 := by
    simp [UnpackedFloat.unpackSign, Float.toBits, Nat.shiftRight_eq_div_pow]
  have hlt : x.toBits.toNat < 2 ^ 64 := x.toBits.toNat_lt
  have hsmall : x.toBits.toNat / 2 ^ 63 < 2 := by omega
  unfold Sign.ofBitVec signOf
  simp only [← BitVec.toNat_inj, hbit, BitVec.toNat_ofNat, beq_iff_eq]
  split <;> split <;> first | rfl | omega

/-- How a double is taken apart. -/
theorem unpacked_eq :
    let sign := signOf (x.toBits.toNat / 2 ^ 63 == 1)
    unpacked x =
      if exponentVec x = -1#_ then
        if fractionVec x = 0#_ then .infinity sign else .notANumber
      else if exponentVec x = 0#_ then
        if h : fractionVec x = 0#_ then .zero sign
        else .finite sign (fractionVec x).toNat (((exponentVec x).toNat : Int) - 1075 + 1)
          (by simpa [BitVec.toNat_pos, BitVec.pos_iff_ne_zero])
      else
        .finite sign (1#1 ++ fractionVec x).toNat (((exponentVec x).toNat : Int) - 1075)
          (by rw [full_fraction_toNat]; exact Nat.add_pos_right _ (by decide)) := by
  dsimp only
  rw [← sign_eq]
  rfl

end Bits

/-- A double is not finite, or it is zero or has the sign, the integer and the exponent of its
parts. -/
theorem unpacked_cases (x : Float) :
    (Binary64.ofFloat? x = none ∧
      (unpacked x = .notANumber ∨ ∃ sign, unpacked x = .infinity sign)) ∨
    ∃ parts, Binary64.ofFloat? x = some parts ∧ parts.Canonical ∧
      ((parts.significand = 0 ∧ unpacked x = .zero (signOf parts.negative)) ∨
        ∃ h, unpacked x =
          .finite (signOf parts.negative) parts.significand parts.exponent h) := by
  have hsmall : x.toBits.toNat % 2 ^ 52 < 2 ^ 52 := Nat.mod_lt _ (by decide)
  rw [unpacked_eq]
  unfold Binary64.ofFloat?
  dsimp only
  by_cases hlarge : x.toBits.toNat / 2 ^ 52 % 2 ^ 11 = 2047
  · left
    rw [if_pos ((exponentVec_eq_ones_iff x).mpr hlarge)]
    refine ⟨if_pos (beq_iff_eq.mpr hlarge), ?_⟩
    by_cases hfraction : fractionVec x = 0#_
    · exact .inr ⟨_, if_pos hfraction⟩
    · exact .inl (if_neg hfraction)
  · right
    rw [if_neg (mt (exponentVec_eq_ones_iff x).mp hlarge), if_neg (mt beq_iff_eq.mp hlarge)]
    by_cases hleast : x.toBits.toNat / 2 ^ 52 % 2 ^ 11 = 0
    · rw [if_pos ((exponentVec_eq_zero_iff x).mpr hleast), if_pos (beq_iff_eq.mpr hleast)]
      refine ⟨_, rfl, ⟨?_, le_refl _, fun h => absurd h (lt_irrefl _)⟩, ?_⟩
      · show x.toBits.toNat % 2 ^ 52 < 2 ^ 53
        omega
      · by_cases hfraction : x.toBits.toNat % 2 ^ 52 = 0
        · exact .inl ⟨hfraction, dif_pos ((fractionVec_eq_zero_iff x).mpr hfraction)⟩
        · right
          rw [dif_neg (mt (fractionVec_eq_zero_iff x).mp hfraction)]
          simp only [fractionVec_toNat, exponentVec_toNat, hleast]
          exact ⟨Nat.pos_of_ne_zero hfraction, rfl⟩
    · rw [if_neg (mt (exponentVec_eq_zero_iff x).mp hleast), if_neg (mt beq_iff_eq.mp hleast)]
      refine ⟨_, rfl, ⟨?_, ?_, fun _ => Nat.le_add_left _ _⟩, .inr ?_⟩
      · show x.toBits.toNat % 2 ^ 52 + 2 ^ 52 < 2 ^ 53
        omega
      · show -1074 ≤ ((x.toBits.toNat / 2 ^ 52 % 2 ^ 11 : Nat) : Int) - 1075
        omega
      · simp only [full_fraction_toNat, exponentVec_toNat]
        exact ⟨Nat.add_pos_right _ (by decide), trivial⟩

/-! ## The number of a double -/

/-- The number that the parts of a double stand for. -/
def numberOf : UnpackedFloat → Option Exact
  | .notANumber => none
  | .infinity sign => some (.infinite sign)
  | .zero _ => some (.finite 0)
  | .finite .negative mantissa exponent _ =>
    some (.finite (Binary64.value ⟨true, mantissa, exponent⟩))
  | .finite .positive mantissa exponent _ =>
    some (.finite (Binary64.value ⟨false, mantissa, exponent⟩))

/-- The number that a double stands for, if it is one. -/
def number? (x : Float) : Option Exact :=
  numberOf (unpacked x)

/-- Only a double that is not a number stands for none. -/
theorem isNaN_iff (x : Float) : x.isNaN = true ↔ number? x = none := by
  show (unpacked x).isNaN = true ↔ numberOf (unpacked x) = none
  cases unpacked x with
  | notANumber => simp [UnpackedFloat.isNaN, numberOf]
  | infinity sign => simp [UnpackedFloat.isNaN, numberOf]
  | zero sign => simp [UnpackedFloat.isNaN, numberOf]
  | finite sign mantissa exponent h => cases sign <;> simp [UnpackedFloat.isNaN, numberOf]

theorem numberOf_finite (negative : Bool) (mantissa : Nat) (exponent : Int) (h : 0 < mantissa) :
    numberOf (.finite (signOf negative) mantissa exponent h) =
      some (.finite (Binary64.value ⟨negative, mantissa, exponent⟩)) := by
  cases negative <;> rfl

/-- A finite double has the value of its parts. -/
theorem exact_of_finite {x : Float} {parts : Binary64} (h : Binary64.ofFloat? x = some parts) :
    number? x = some (.finite parts.value) := by
  obtain ⟨hnone, -⟩ | ⟨parts', hparts, -, ⟨hsignificand, hzero⟩ | ⟨hpos, hfinite⟩⟩ :=
    unpacked_cases x
  · rw [h] at hnone
    cases hnone
  · rw [h, Option.some.injEq] at hparts
    rw [number?, hzero, (Binary64.value_eq_zero_iff parts).mpr (hparts ▸ hsignificand)]
    rfl
  · rw [h, Option.some.injEq] at hparts
    rw [number?, hfinite, numberOf_finite, hparts]

/-- A double that is a number but not finite is infinite. -/
theorem infinite_of_exact {x : Float} {number : Exact} (h : Binary64.ofFloat? x = none)
    (hnumber : number? x = some number) : ∃ sign, unpacked x = .infinity sign := by
  obtain ⟨-, hnan | hinfinite⟩ | ⟨parts, hparts, -⟩ := unpacked_cases x
  · rw [number?, hnan] at hnumber
    cases hnumber
  · exact hinfinite
  · rw [h] at hparts
    cases hparts

theorem exact_ne_finite {x : Float} (h : Binary64.ofFloat? x = none) (value : ℚ) :
    number? x ≠ some (.finite value) := by
  intro hnumber
  obtain ⟨sign, hinfinite⟩ := infinite_of_exact h hnumber
  rw [number?, hinfinite] at hnumber
  cases hnumber

/-- Two doubles in parts are equal: infinite or finite with the same parts, or both zero. -/
inductive SameParts : UnpackedFloat → UnpackedFloat → Prop where
  | infinity (sign : Sign) : SameParts (.infinity sign) (.infinity sign)
  | zero (sign other : Sign) : SameParts (.zero sign) (.zero other)
  | finite (sign : Sign) (mantissa : Nat) (exponent : Int) (h : 0 < mantissa) :
      SameParts (.finite sign mantissa exponent h) (.finite sign mantissa exponent h)

theorem compare_eq_iff (a b : UnpackedFloat) : a.compare b = some .eq ↔ SameParts a b := by
  constructor
  · intro h
    unfold UnpackedFloat.compare at h
    split at h
    -- Doubles of different sorts, and finite ones of different signs, compare as less or greater.
    all_goals first | cases h; done | skip
    · rename_i sign other
      cases sign <;> cases other <;> first | exact .infinity _ | cases h
    · exact .zero _ _
    · rw [Option.some.injEq, Ordering.swap_eq_eq, Ordering.then_eq_eq, compare_eq_iff_eq,
        compare_eq_iff_eq] at h
      obtain ⟨rfl, rfl⟩ := h
      exact .finite _ _ _ _
    · rw [Option.some.injEq, Ordering.then_eq_eq, compare_eq_iff_eq, compare_eq_iff_eq] at h
      obtain ⟨rfl, rfl⟩ := h
      exact .finite _ _ _ _
  · rintro (sign | ⟨sign, other⟩ | ⟨sign, mantissa, exponent, hpos⟩)
    · cases sign <;> rfl
    · rfl
    · cases sign <;> simp [UnpackedFloat.compare]

/-- Equal parts stand for the same number. -/
theorem SameParts.number {a b : UnpackedFloat} (h : SameParts a b) :
    ∃ number, numberOf a = some number ∧ numberOf b = some number := by
  cases h with
  | infinity sign => exact ⟨.infinite sign, rfl, rfl⟩
  | zero sign other => exact ⟨.finite 0, rfl, rfl⟩
  | finite sign mantissa exponent hpos =>
      cases sign with
      | negative => exact ⟨_, rfl, rfl⟩
      | positive => exact ⟨_, rfl, rfl⟩

/-- Finite doubles of the same value have equal parts. -/
theorem same_parts_of_value {x y : Float} {parts other : Binary64}
    (hx : Binary64.ofFloat? x = some parts) (hy : Binary64.ofFloat? y = some other)
    (hvalue : parts.value = other.value) : SameParts (unpacked x) (unpacked y) := by
  obtain ⟨hnone, -⟩ | ⟨parts', hparts, hcanonical, hunpacked⟩ := unpacked_cases x
  · rw [hx] at hnone
    cases hnone
  obtain ⟨hnone, -⟩ | ⟨other', hother, hcanonical', hunpacked'⟩ := unpacked_cases y
  · rw [hy] at hnone
    cases hnone
  rw [hx, Option.some.injEq] at hparts
  rw [hy, Option.some.injEq] at hother
  subst hparts hother
  have hzero : parts.significand = 0 ↔ other.significand = 0 := by
    rw [← Binary64.value_eq_zero_iff, ← Binary64.value_eq_zero_iff, hvalue]
  obtain ⟨hsignificand, hx⟩ | ⟨hpos, hx⟩ := hunpacked
  · obtain ⟨-, hy⟩ | ⟨hpos', hy⟩ := hunpacked'
    · rw [hx, hy]
      exact .zero _ _
    · exact absurd (hzero.mp hsignificand) (Nat.ne_of_gt hpos')
  · obtain ⟨hsignificand', -⟩ | ⟨hpos', hy⟩ := hunpacked'
    · exact absurd (hzero.mpr hsignificand') (Nat.ne_of_gt hpos)
    · obtain ⟨hnegative, hexponent, hsignificand⟩ :=
        (hcanonical.value_eq_iff hcanonical' (Nat.ne_of_gt hpos)).mp hvalue
      rw [hx, hy]
      simp only [hnegative, hexponent, hsignificand]
      exact .finite _ _ _ _

/-- Doubles that stand for the same number have equal parts. -/
theorem same_parts_of_number {x y : Float} {number : Exact} (hx : number? x = some number)
    (hy : number? y = some number) : SameParts (unpacked x) (unpacked y) := by
  cases hparts : Binary64.ofFloat? x with
  | some parts =>
      rw [exact_of_finite hparts, Option.some.injEq] at hx
      subst hx
      cases hother : Binary64.ofFloat? y with
      | some other =>
          rw [exact_of_finite hother, Option.some.injEq, Exact.finite.injEq] at hy
          exact same_parts_of_value hparts hother hy.symm
      | none => exact absurd hy (exact_ne_finite hother _)
  | none =>
      cases hother : Binary64.ofFloat? y with
      | some other =>
          rw [exact_of_finite hother, Option.some.injEq] at hy
          exact absurd (hy ▸ hx) (exact_ne_finite hparts _)
      | none =>
          obtain ⟨sign, hunpacked⟩ := infinite_of_exact hparts hx
          obtain ⟨sign', hunpacked'⟩ := infinite_of_exact hother hy
          rw [number?, hunpacked] at hx
          rw [number?, hunpacked'] at hy
          cases hx.trans hy.symm
          rw [hunpacked, hunpacked']
          exact .infinity sign

/-- Doubles are equal if they stand for the same number. -/
theorem float_equal_iff (x y : Float) :
    (x == y) = true ↔ ∃ number, number? x = some number ∧ number? y = some number := by
  have hparts : (x == y) = true ↔ SameParts (unpacked x) (unpacked y) := by
    show ((unpacked x).compare (unpacked y) == some .eq) = true ↔ _
    rw [beq_iff_eq, compare_eq_iff]
  rw [hparts]
  constructor
  · exact SameParts.number
  · rintro ⟨number, hx, hy⟩
    exact same_parts_of_number hx hy

theorem exact_zero : number? 0 = some (.finite 0) := by
  have hparts : Binary64.ofFloat? 0 = some ⟨false, 0, -1074⟩ := by decide
  rw [exact_of_finite hparts, (Binary64.value_eq_zero_iff _).mpr rfl]

/-! ## Comparing numbers -/

/-- A double that is less than another does not stand for the same number. -/
theorem not_lt_of_exact {x y : Float} {number : Exact} (hx : number? x = some number)
    (hy : number? y = some number) : ¬x < y := by
  intro hlt
  have hless : (unpacked x).lt (unpacked y) = true := of_decide_eq_true hlt
  rw [UnpackedFloat.lt, (compare_eq_iff _ _).mpr (same_parts_of_number hx hy)] at hless
  cases hless

/-- Doubles compare as equal if they stand for the same number. -/
theorem compare_floats_iff (x y : Float) :
    Numeric.compareFloats? x y = some .eq ↔
      ∃ number, number? x = some number ∧ number? y = some number := by
  rw [← float_equal_iff]
  unfold Numeric.compareFloats?
  constructor
  · intro h
    split at h
    · cases h
    · split at h
      · cases h
      · split at h
        · assumption
        · cases h
  · intro h
    obtain ⟨number, hx, hy⟩ := (float_equal_iff x y).mp h
    rw [if_neg (not_lt_of_exact hx hy), if_neg (not_lt_of_exact hy hx), if_pos h]

/-- The value of parts, with the sign in the integer. -/
theorem Binary64.value_eq (parts : Binary64) :
    parts.value =
      ((if parts.negative then -(parts.significand : Int) else parts.significand : Int) : ℚ) *
        2 ^ parts.exponent := by
  unfold value magnitude
  split
  · push_cast
    ring
  · push_cast
    ring

/-- An integer compares as equal to the parts whose value it is. -/
theorem compare_with_float_iff (n : Int) (parts : Binary64) :
    compareWithFloat n parts = .eq ↔ parts.value = n := by
  rw [Binary64.value_eq]
  unfold compareWithFloat
  dsimp only
  generalize (if parts.negative then -(parts.significand : Int) else parts.significand : Int) =
    significand
  split
  · rename_i hexponent
    obtain ⟨e, he⟩ := Int.eq_ofNat_of_zero_le hexponent
    rw [compare_eq_iff_eq, he, Int.toNat_natCast, zpow_natCast, eq_comm]
    exact_mod_cast Iff.rfl
  · rename_i hexponent
    obtain ⟨e, he⟩ := Int.eq_ofNat_of_zero_le (show 0 ≤ -parts.exponent by omega)
    have hexp : parts.exponent = -(e : Int) := by omega
    rw [compare_eq_iff_eq, he, Int.toNat_natCast, hexp, zpow_neg, zpow_natCast,
      ← div_eq_mul_inv, div_eq_iff (pow_ne_zero _ two_ne_zero), eq_comm]
    exact_mod_cast Iff.rfl

/-- An integer compares as equal to a double that stands for it. -/
theorem compare_int_float_iff (n : Int) (x : Float) :
    Numeric.compareIntFloat? n x = some .eq ↔ number? x = some (.finite n) := by
  unfold Numeric.compareIntFloat?
  cases hparts : Binary64.ofFloat? x with
  | some parts =>
      rw [exact_of_finite hparts, Option.some.injEq, compare_with_float_iff, Option.some.injEq,
        Exact.finite.injEq]
  | none =>
      constructor
      · intro h
        dsimp only at h
        split at h
        · cases h
        · split at h <;> cases h
      · exact fun h => absurd h (exact_ne_finite hparts _)

namespace Numeric

/-- The number that an integer or a double stands for. -/
def real? : Numeric → Option Exact
  | .int n => some (.finite n)
  | .float x => Number.number? x
  | .complex _ _ => none

/-- The real and the imaginary part that a number stands for. -/
def number? : Numeric → Option (Exact × Exact)
  | .complex re im =>
    (Number.number? re).bind fun real => (Number.number? im).map fun imaginary => (real, imaginary)
  | other => other.real?.map fun real => (real, .finite 0)

/-- Integers and doubles compare as equal if they stand for the same number. -/
theorem compare_iff (a b : Numeric) :
    (compare? a b == some .eq) = true ↔
      ∃ number, a.real? = some number ∧ b.real? = some number := by
  rw [beq_iff_eq]
  cases a with
  | int n =>
      cases b with
      | int m =>
          simp only [compare?, real?, Option.some.injEq, compare_eq_iff_eq, exists_eq_left',
            Exact.finite.injEq, Int.cast_inj]
          exact eq_comm
      | float y => simp [compare?, real?, compare_int_float_iff]
      | complex => simp [compare?, real?]
  | float x =>
      cases b with
      | int m => simp [compare?, real?, compare_int_float_iff]
      | float y => simp [compare?, real?, compare_floats_iff]
      | complex => simp [compare?, real?]
  | complex => simp [compare?, real?]

/-- The number has no imaginary part. -/
def IsReal (a : Numeric) : Prop :=
  a.number? = a.real?.map fun real => (real, .finite 0)

/-- Real numbers are equal if they stand for the same number. -/
theorem real_equal_iff {a b : Numeric} (ha : a.IsReal) (hb : b.IsReal) :
    (compare? a b == some .eq) = true ↔
      ∃ number, a.number? = some number ∧ b.number? = some number := by
  rw [compare_iff, ha, hb]
  simp only [Option.map_eq_some_iff]
  constructor
  · rintro ⟨real, hareal, hbreal⟩
    exact ⟨_, ⟨real, hareal, rfl⟩, real, hbreal, rfl⟩
  · rintro ⟨_, ⟨real, hareal, rfl⟩, real', hbreal, heq⟩
    obtain ⟨rfl, -⟩ := Prod.mk.inj heq
    exact ⟨real', hareal, hbreal⟩

/-- A complex number equals a real one if its real part does and its imaginary part is zero. -/
theorem complex_equal_iff (re im : Float) {other : Numeric} (h : other.IsReal) :
    ((im == 0) = true ∧ ∃ real, Number.number? re = some real ∧ other.real? = some real) ↔
      ∃ number, (Numeric.complex re im).number? = some number ∧ other.number? = some number := by
  rw [h, float_equal_iff, exact_zero]
  simp only [number?, Option.bind_eq_some_iff, Option.map_eq_some_iff, Option.some.injEq]
  constructor
  · rintro ⟨⟨_, him, rfl⟩, real, hre, hreal⟩
    exact ⟨(real, .finite 0), ⟨real, hre, .finite 0, him, rfl⟩, real, hreal, rfl⟩
  · rintro ⟨_, ⟨real, hre, imaginary, him, rfl⟩, real', hreal, heq⟩
    obtain ⟨rfl, rfl⟩ := Prod.mk.inj heq
    exact ⟨⟨_, him, rfl⟩, real', hre, hreal⟩

/-- Numbers are equal if they stand for the same number. -/
theorem equal_iff (a b : Numeric) :
    a.equal b = true ↔ ∃ number, a.number? = some number ∧ b.number? = some number := by
  have hleft (re im : Float) {other : Numeric} (h : other.IsReal) :
      (im == 0 && compare? (.float re) other == some .eq) = true ↔
        ∃ number, (Numeric.complex re im).number? = some number ∧ other.number? = some number := by
    rw [Bool.and_eq_true, compare_iff, ← complex_equal_iff re im h]
    rfl
  have hright (re im : Float) {other : Numeric} (h : other.IsReal) :
      (im == 0 && compare? other (.float re) == some .eq) = true ↔
        ∃ number, other.number? = some number ∧ (Numeric.complex re im).number? = some number := by
    simp only [Bool.and_eq_true, compare_iff, and_comm (a := other.number? = _),
      and_comm (a := other.real? = _), ← complex_equal_iff re im h]
    rfl
  cases a with
  | complex re im =>
      cases b with
      | complex re' im' =>
          simp only [equal, Bool.and_eq_true, float_equal_iff, number?, Option.bind_eq_some_iff,
            Option.map_eq_some_iff]
          constructor
          · rintro ⟨⟨real, hre, hre'⟩, imaginary, him, him'⟩
            exact ⟨_, ⟨real, hre, imaginary, him, rfl⟩, real, hre', imaginary, him', rfl⟩
          · rintro ⟨_, ⟨real, hre, imaginary, him, rfl⟩, real', hre', imaginary', him', heq⟩
            obtain ⟨rfl, rfl⟩ := Prod.mk.inj heq
            exact ⟨⟨_, hre, hre'⟩, _, him, him'⟩
      | int | float => exact hleft re im rfl
  | int | float =>
      cases b with
      | complex re im => exact hright re im rfl
      | int | float => exact real_equal_iff rfl rfl

end Numeric

end Script.Number
