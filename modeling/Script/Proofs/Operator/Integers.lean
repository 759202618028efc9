import Script.Proofs.Builtin.Run
import Script.Proofs.Number.Bits

/-!
# Operators on integers

Division rounds down and leaves a remainder with the sign of the divisor, shifts multiply with and
divide by powers of two, and the operators on bits work place by place, for integers of either sign
and any size (`Heap.integer_operators`).
-/

namespace Script

open Script.Action

/-- Moving the bits of an integer so far to the left stays within what the machine can hold. -/
def Arithmetic.ShiftFits (n : Int) (places : Nat) : Prop :=
  n = 0 ∨ shiftedDigits n places ≤ maxIntegerDigits ∧ places ≤ maxBits

namespace Heap

/-- `(a // b) * b + a % b`. -/
def rebuilt (a b : Int) : Action Value := do
  let quotient ← BinaryOperator.floorDivide.apply (.int a) (.int b)
  let product ← BinaryOperator.multiply.apply quotient (.int b)
  let rest ← BinaryOperator.remainder.apply (.int a) (.int b)
  BinaryOperator.add.apply product rest

/-- `(a ^ b) + 2 * (a & b)`. -/
def carried (a b : Int) : Action Value := do
  let apart ← BinaryOperator.bitXor.apply (.int a) (.int b)
  let both ← BinaryOperator.bitAnd.apply (.int a) (.int b)
  let twice ← BinaryOperator.multiply.apply (.int 2) both
  BinaryOperator.add.apply apart twice

/-- `~(a & b)`. -/
def invertedAnd (a b : Int) : Action Value := do
  let both ← BinaryOperator.bitAnd.apply (.int a) (.int b)
  UnaryOperator.invert.apply both

/-- `~a | ~b`. -/
def orOfInverted (a b : Int) : Action Value := do
  let left ← UnaryOperator.invert.apply (.int a)
  let right ← UnaryOperator.invert.apply (.int b)
  BinaryOperator.bitOr.apply left right

/-- What the operators on integers make of two of them. -/
structure IntegerLaws (heap : Heap) (a b : Int) : Prop where
  /-- The remainder is smaller than the divisor and has its sign. -/
  divided (h : b ≠ 0) : ∃ quotient rest : Int,
    heap.Returns (BinaryOperator.floorDivide.apply (.int a) (.int b)) (.int quotient) ∧
    heap.Returns (BinaryOperator.remainder.apply (.int a) (.int b)) (.int rest) ∧
    a = quotient * b + rest ∧ rest.natAbs < b.natAbs ∧ (rest = 0 ∨ rest.sign = b.sign)
  rebuilt (h : b ≠ 0) : heap.Returns (rebuilt a b) (.int a)
  shifted_left (places : Nat) (h : Arithmetic.ShiftFits a places) :
    heap.Returns (BinaryOperator.shiftLeft.apply (.int a) (.int places)) (.int (a * 2 ^ places))
  /-- A shift that the machine cannot make ends with an error or for lack of memory. -/
  not_shifted (places : Nat) (h : ¬Arithmetic.ShiftFits a places) :
    BinaryOperator.shiftLeft.apply (.int a) (.int places) heap =
      .error (.raised .overflowError "too many digits in integer") ∨
    BinaryOperator.shiftLeft.apply (.int a) (.int places) heap = .error (.fault .memory)
  /-- A shift to the right is a division by a power of two that rounds down. -/
  shifted_right (places : Nat) :
    heap.Returns (BinaryOperator.shiftRight.apply (.int a) (.int places))
      (.int (a.fdiv (2 ^ places))) ∧
    heap.Returns (BinaryOperator.floorDivide.apply (.int a) (.int (2 ^ places)))
      (.int (a.fdiv (2 ^ places)))
  inverted : heap.Returns (UnaryOperator.invert.apply (.int a)) (.int (-a - 1))
  /-- A bit of a result depends on the two bits at the same place. -/
  bits : ∃ both either apart : Int,
    heap.Returns (BinaryOperator.bitAnd.apply (.int a) (.int b)) (.int both) ∧
    heap.Returns (BinaryOperator.bitOr.apply (.int a) (.int b)) (.int either) ∧
    heap.Returns (BinaryOperator.bitXor.apply (.int a) (.int b)) (.int apart) ∧
    ∀ place, Number.bit both place = (Number.bit a place && Number.bit b place) ∧
      Number.bit either place = (Number.bit a place || Number.bit b place) ∧
      Number.bit apart place = (Number.bit a place != Number.bit b place)
  sum : heap.Returns (BinaryOperator.add.apply (.int a) (.int b)) (.int (a + b)) ∧
    heap.Returns (carried a b) (.int (a + b))
  inverted_and : ∃ n : Int, heap.Returns (invertedAnd a b) (.int n) ∧
    heap.Returns (orOfInverted a b) (.int n)

/-! ## What each operator does -/

section Run

variable (heap : Heap) {a b : Int}

theorem floor_divide_run (h : b ≠ 0) :
    BinaryOperator.floorDivide.apply (.int a) (.int b) heap = .ok (.int (a.fdiv b), heap) := by
  have hzero : (Number.Numeric.int b).isZero = false := beq_false_of_ne h
  refine BinaryOperator.apply_run ?_
  show Arithmetic.floorDivide (.int a) (.int b) heap = _
  unfold Arithmetic.floorDivide
  rw [hzero]
  rfl

theorem remainder_run (h : b ≠ 0) :
    BinaryOperator.remainder.apply (.int a) (.int b) heap = .ok (.int (a.fmod b), heap) := by
  have hzero : (Number.Numeric.int b).isZero = false := beq_false_of_ne h
  refine BinaryOperator.apply_run ?_
  show Arithmetic.remainder (.int a) (.int b) heap = _
  unfold Arithmetic.remainder
  rw [hzero]
  rfl

/-- A shift that is asked for with a natural number is made. -/
theorem shift_run (symbol : String) (move : Int → Nat → Action Value) (n : Int) (places : Nat) :
    Operand.shift symbol move (.int n) (.int places) heap = move n places heap := by
  have hnegative : ¬(places : Int) < 0 := by omega
  unfold Operand.shift
  dsimp only
  rw [if_neg hnegative]
  rfl

theorem shift_left_run {places : Nat} (h : Arithmetic.ShiftFits a places) :
    BinaryOperator.shiftLeft.apply (.int a) (.int places) heap =
      .ok (.int (a * 2 ^ places), heap) := by
  have hrun := heap.shift_run "<<" Arithmetic.shiftLeft a places
  refine BinaryOperator.apply_run (hrun.trans ?_)
  unfold Arithmetic.shiftLeft
  obtain rfl | ⟨hdigits, hplaces⟩ := h
  · rw [if_pos rfl, Int.zero_mul]
    rfl
  · by_cases hzero : a = 0
    · rw [if_pos hzero, hzero, Int.zero_mul]
      rfl
    · rw [if_neg hzero, if_neg (by omega), if_neg (by omega)]
      rfl

theorem shift_left_fails {places : Nat} (h : ¬Arithmetic.ShiftFits a places) :
    BinaryOperator.shiftLeft.apply (.int a) (.int places) heap =
      .error (.raised .overflowError "too many digits in integer") ∨
    BinaryOperator.shiftLeft.apply (.int a) (.int places) heap = .error (.fault .memory) := by
  obtain ⟨hzero, hlimits⟩ := not_or.mp h
  have hrun := heap.shift_run "<<" Arithmetic.shiftLeft a places
  unfold BinaryOperator.apply
  dsimp only [BinaryOperator.operation]
  rw [hrun]
  unfold Arithmetic.shiftLeft
  rw [if_neg hzero]
  by_cases hdigits : Arithmetic.maxIntegerDigits < Arithmetic.shiftedDigits a places
  · rw [if_pos hdigits]
    exact .inl rfl
  · rw [if_neg hdigits, if_pos (by omega)]
    exact .inr rfl

theorem shift_right_run (places : Nat) :
    BinaryOperator.shiftRight.apply (.int a) (.int places) heap =
      .ok (.int (a.fdiv (2 ^ places)), heap) := by
  have hpower : (0 : Int) < 2 ^ places := Int.pow_pos (by decide)
  have hrun :=
    heap.shift_run ">>" (fun n places => return .int (Number.shiftRight n places)) a places
  refine BinaryOperator.apply_run (hrun.trans ?_)
  rw [Number.shift_right_eq, Int.fdiv_eq_ediv_of_nonneg a hpower.le]
  rfl

theorem add_run (a b : Int) :
    BinaryOperator.add.apply (.int a) (.int b) heap = .ok (.int (a + b), heap) :=
  rfl

theorem multiply_run (a b : Int) :
    BinaryOperator.multiply.apply (.int a) (.int b) heap = .ok (.int (a * b), heap) :=
  rfl

theorem bit_and_run (a b : Int) :
    BinaryOperator.bitAnd.apply (.int a) (.int b) heap = .ok (.int (Number.bitAnd a b), heap) :=
  rfl

theorem bit_or_run (a b : Int) :
    BinaryOperator.bitOr.apply (.int a) (.int b) heap = .ok (.int (Number.bitOr a b), heap) :=
  rfl

theorem bit_xor_run (a b : Int) :
    BinaryOperator.bitXor.apply (.int a) (.int b) heap = .ok (.int (Number.bitXor a b), heap) :=
  rfl

theorem invert_run (a : Int) :
    UnaryOperator.invert.apply (.int a) heap = .ok (.int (Number.complement a), heap) :=
  rfl

end Run

/-! ## The laws -/

/-- A remainder is smaller than the divisor, whatever the signs, and has the divisor's sign. -/
theorem fmod_spec (a : Int) {b : Int} (h : b ≠ 0) :
    (a.fmod b).natAbs < b.natAbs ∧ (a.fmod b = 0 ∨ (a.fmod b).sign = b.sign) := by
  obtain hnegative | hpositive := Int.lt_or_gt_of_ne h
  · have hmirror : (-a).fmod (-b) = -a.fmod b := Int.neg_fmod_neg a b
    have hnonneg := Int.fmod_nonneg_of_pos (-a) (b := -b) (by omega)
    have hless := Int.fmod_lt_of_pos (-a) (b := -b) (by omega)
    rw [hmirror] at hnonneg hless
    refine ⟨by omega, ?_⟩
    by_cases hzero : a.fmod b = 0
    · exact .inl hzero
    · rw [Int.sign_eq_neg_one_of_neg hnegative]
      exact .inr (Int.sign_eq_neg_one_of_neg (by omega))
  · have hnonneg := Int.fmod_nonneg_of_pos a hpositive
    have hless := Int.fmod_lt_of_pos a hpositive
    refine ⟨by omega, ?_⟩
    by_cases hzero : a.fmod b = 0
    · exact .inl hzero
    · rw [Int.sign_eq_one_of_pos hpositive]
      exact .inr (Int.sign_eq_one_of_pos (by omega))

/-- The operators on integers are those of arithmetic and of rows of bits. -/
theorem integer_operators (heap : Heap) (a b : Int) : heap.IntegerLaws a b where
  divided h :=
    ⟨_, _, ⟨heap, heap.floor_divide_run h⟩, ⟨heap, heap.remainder_run h⟩,
      (Int.fdiv_mul_add_fmod a b).symm, fmod_spec a h⟩
  rebuilt h := by
    refine ⟨heap, ?_⟩
    rw [Heap.rebuilt, bind_run (heap.floor_divide_run h), bind_run (heap.multiply_run _ b),
      bind_run (heap.remainder_run h), heap.add_run, Int.fdiv_mul_add_fmod]
  shifted_left places h := ⟨heap, heap.shift_left_run h⟩
  not_shifted places h := heap.shift_left_fails h
  shifted_right places :=
    ⟨⟨heap, heap.shift_right_run places⟩,
      ⟨heap, heap.floor_divide_run (Int.pow_pos (by decide)).ne'⟩⟩
  inverted := ⟨heap, heap.invert_run a⟩
  bits :=
    ⟨_, _, _, ⟨heap, heap.bit_and_run a b⟩, ⟨heap, heap.bit_or_run a b⟩,
      ⟨heap, heap.bit_xor_run a b⟩, fun place =>
        ⟨Number.bit_and a b place, Number.bit_or a b place, Number.bit_xor a b place⟩⟩
  sum := by
    refine ⟨⟨heap, heap.add_run a b⟩, heap, ?_⟩
    rw [carried, bind_run (heap.bit_xor_run a b), bind_run (heap.bit_and_run a b),
      bind_run (heap.multiply_run 2 _), heap.add_run, Number.xor_add_twice_and]
  inverted_and := by
    refine ⟨Number.complement (Number.bitAnd a b), ⟨heap, ?_⟩, heap, ?_⟩
    · rw [invertedAnd, bind_run (heap.bit_and_run a b), heap.invert_run]
    · rw [orOfInverted, bind_run (heap.invert_run a), bind_run (heap.invert_run b),
        heap.bit_or_run, Number.complement_and]

end Heap

end Script
