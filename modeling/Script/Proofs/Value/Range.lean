import Mathlib.Data.List.Basic
import Script.Value.Range

/-!
# The members of a range

The arithmetic of ranges against the list of their members. A place holds a member if the number
there lies before the stop (`before_get_iff`), so the members are the numbers of that kind, in order
(`get_to_list`, `mem_to_list_iff`), and membership finds exactly these (`contains_iff`).
-/

namespace Script.Range

/-- The number lies before the stop, in the direction of the step. -/
def before (range : Range) (n : Int) : Bool :=
  if 0 < range.step then n < range.stop else range.stop < n

variable {range : Range} {n : Int}

theorem before_iff_of_pos (h : 0 < range.step) : range.before n = true ↔ n < range.stop := by
  simp [before, h]

theorem before_iff_of_neg (h : range.step < 0) : range.before n = true ↔ range.stop < n := by
  simp [before, Int.lt_asymm h]

theorem step_pos_or_neg (range : Range) : 0 < range.step ∨ range.step < 0 := by
  have hstep := range.step_ne_zero
  omega

/-- So many steps of some size fall short of a distance as the quotient, rounded up, says. -/
theorem lt_quotient_iff {distance size : Int} (hsize : 0 < size) (place : Nat) :
    place < ((distance + size - 1) / size).toNat ↔ place * size < distance := by
  have hquotient : (place : Int) + 1 ≤ (distance + size - 1) / size ↔
      ((place : Int) + 1) * size ≤ distance + size - 1 := Int.le_ediv_iff_mul_le hsize
  rw [Int.add_mul, Int.one_mul] at hquotient
  omega

/-- The places before the length hold the numbers that lie before the stop. -/
theorem before_get_iff (range : Range) (place : Nat) :
    range.before (range.get place) = true ↔ place < range.length := by
  unfold get
  obtain hpos | hneg := range.step_pos_or_neg
  · rw [before_iff_of_pos hpos, length, if_pos hpos, lt_quotient_iff hpos]
    omega
  · have hsize : 0 < -range.step := by omega
    have hdown : range.start - range.stop - range.step - 1 =
        range.start - range.stop + -range.step - 1 := by omega
    rw [before_iff_of_neg hneg, length, if_neg (by omega), hdown, lt_quotient_iff hsize,
      Int.mul_neg]
    omega

@[simp]
theorem length_to_list (range : Range) : range.toList.length = range.length := by
  simp [toList]

/-- A place holds its number if that lies before the stop, and nothing otherwise. -/
theorem get_to_list (range : Range) (place : Nat) :
    range.toList[place]? =
      if range.before (range.get place) then some (range.get place) else none := by
  by_cases hplace : place < range.length
  · rw [if_pos ((range.before_get_iff place).mpr hplace), toList, List.getElem?_map,
      List.getElem?_range hplace]
    rfl
  · rw [if_neg (fun hbefore => hplace ((range.before_get_iff place).mp hbefore))]
    exact List.getElem?_eq_none (by simpa using hplace)

/-- The members are the numbers that some steps lead to and that lie before the stop. -/
theorem mem_to_list_iff :
    n ∈ range.toList ↔ ∃ place : Nat, n = range.get place ∧ range.before n = true := by
  unfold toList
  rw [List.mem_map]
  constructor
  · rintro ⟨place, hplace, rfl⟩
    exact ⟨place, rfl, (range.before_get_iff place).mpr (List.mem_range.mp hplace)⟩
  · rintro ⟨place, rfl, hbefore⟩
    exact ⟨place, List.mem_range.mpr ((range.before_get_iff place).mp hbefore), rfl⟩

/-- Some steps lead from the start to a number if it does not lie on the other side of the start,
and its distance is a multiple of the step. -/
theorem exists_get_iff :
    (∃ place : Nat, n = range.get place) ↔
      (if 0 < range.step then range.start ≤ n else n ≤ range.start) ∧
        (n - range.start) % range.step = 0 := by
  unfold get
  constructor
  · rintro ⟨place, rfl⟩
    have hdistance : range.start + place * range.step - range.start = place * range.step := by omega
    refine ⟨?_, by rw [hdistance, Int.mul_emod_left]⟩
    have hplace : (0 : Int) ≤ place := Int.natCast_nonneg place
    split
    · rename_i hpos
      have := Int.mul_nonneg hplace (Int.le_of_lt hpos)
      omega
    · rename_i hneg
      have := Int.mul_nonpos_of_nonneg_of_nonpos hplace (Int.not_lt.mp hneg)
      omega
  · rintro ⟨hside, hdivides⟩
    obtain ⟨quotient, hquotient⟩ := Int.dvd_of_emod_eq_zero hdivides
    have hnonneg : 0 ≤ quotient := by
      obtain hpos | hneg := range.step_pos_or_neg
      · rw [if_pos hpos] at hside
        exact Int.nonneg_of_mul_nonneg_right (a := range.step) (by omega) hpos
      · rw [if_neg (by omega)] at hside
        have hback : 0 ≤ -range.step * quotient := by
          rw [Int.neg_mul]
          omega
        exact Int.nonneg_of_mul_nonneg_right hback (by omega)
    refine ⟨quotient.toNat, ?_⟩
    rw [Int.toNat_of_nonneg hnonneg, Int.mul_comm]
    omega

/-- Membership finds the members, and no other numbers. -/
theorem contains_iff : range.contains n = true ↔ n ∈ range.toList := by
  have hcontains : range.contains n = true ↔
      ((if 0 < range.step then range.start ≤ n else n ≤ range.start) ∧
        (n - range.start) % range.step = 0) ∧ range.before n = true := by
    unfold contains before
    split
    · simp only [Bool.and_eq_true, decide_eq_true_eq, beq_iff_eq]
      exact and_right_comm
    · simp only [Bool.and_eq_true, decide_eq_true_eq, beq_iff_eq]
      exact ⟨fun ⟨⟨hbefore, hside⟩, hdivides⟩ => ⟨⟨hside, hdivides⟩, hbefore⟩,
        fun ⟨⟨hside, hdivides⟩, hbefore⟩ => ⟨⟨hbefore, hside⟩, hdivides⟩⟩
  rw [hcontains, ← exists_get_iff, mem_to_list_iff, exists_and_right]

end Script.Range
