import Script.Proofs.Eval.KeyInvariant
import Script.Proofs.Heap.Equivalence

/-!
# Comparing the values of a program

Among the values that a program has at hand, `==` and `is` are equivalence relations, as long as
the values are acyclic and no double and no complex number is part of them. What a program has at
hand is sound, wherever it has got to (`EvalState.Arises.sound`, `EvalState.AtHand.sound`), and so
the laws of equality in a sound heap apply.
-/

namespace Script

attribute [local instance] KnownClasses.all

variable {fuel : Nat} {expr : Expr} {state after : EvalState}

namespace Eval

/-- An evaluation that begins in a sound state ends in one. -/
theorem evaluate_keeps_sound (hstate : state.Sound) {outcome : Except Exit Value}
    (h : evaluate fuel expr state = (outcome, after)) : after.Sound := by
  have hends : Ends True Value.Sound (evaluate fuel expr state) (evaluate fuel expr state) :=
    parallel_evaluate fuel expr state state (.refl fun _ => hstate)
  rw [h] at hends
  cases hends with
  | ok _ halike => exact halike.sound
  | error _ halike => exact halike.sound

end Eval

namespace EvalState

/-- The state occurs, or an evaluation that was begun in such a state has ended in it. -/
inductive Arises : EvalState → Prop where
  | occurs {state : EvalState} : state.Occurs → Arises state
  | ended {fuel : Nat} {expr : Expr} {state after : EvalState} {outcome : Except Exit Value} :
      state.Occurs → Eval.evaluate fuel expr state = (outcome, after) → Arises after

/-- The values that a program can compare in a state: what the state holds, the result of the
evaluation that ended in it, and what was at hand before that evaluation. -/
inductive AtHand : EvalState → Value → Prop where
  | held {state : EvalState} {value : Value} : state.Holds value → AtHand state value
  | result {fuel : Nat} {expr : Expr} {state after : EvalState} {value : Value} :
      state.Occurs → Eval.evaluate fuel expr state = (.ok value, after) → AtHand after value
  | kept {fuel : Nat} {expr : Expr} {state after : EvalState} {outcome : Except Exit Value}
      {value : Value} :
      state.Occurs → AtHand state value → Eval.evaluate fuel expr state = (outcome, after) →
        AtHand after value
  | part {state : EvalState} {whole part : Value} :
      AtHand state whole → part.Within whole → AtHand state part

theorem Arises.sound (h : state.Arises) : state.Sound := by
  cases h with
  | occurs hoccurs => exact hoccurs.sound
  | ended hoccurs hrun => exact Eval.evaluate_keeps_sound hoccurs.sound hrun

theorem AtHand.sound (hstate : state.Arises) {value : Value} (h : state.AtHand value) :
    value.Sound := by
  induction h with
  | held hholds => exact hstate.sound.holds hholds
  | result hoccurs hrun => exact Eval.evaluate_sound hoccurs.sound _ _ hrun
  | kept hoccurs _ _ ih => exact ih (.occurs hoccurs)
  | part _ hpart ih => exact (ih hstate).within hpart

/-- A value at hand that is acyclic, and that no double and no complex number is part of. -/
structure Comparable (state : EvalState) where
  value : Value
  atHand : state.AtHand value
  acyclic : state.world.heap.Acyclic value
  floatFree : state.world.heap.FloatFree value

theorem Comparable.fine (hstate : state.Arises) (a : state.Comparable) :
    state.world.heap.Fine a.value :=
  ⟨a.atHand.sound hstate, a.floatFree⟩

/-- A value at hand that has been looked through. -/
def Comparable.ofPlain {depth : Nat} {value : Value} (hvalue : state.AtHand value)
    (h : state.world.heap.plainWithin depth value = true) : state.Comparable :=
  ⟨value, hvalue, (Heap.NestsWithin.of_plain h).acyclic, .of_plain h⟩

theorem equals_equivalence (hstate : state.Arises) :
    Equivalence fun a b : state.Comparable => state.world.heap.Equals a.value b.value where
  refl a := .refl hstate.sound.heap (a.fine hstate) a.acyclic
  symm {a b} h := h.symm hstate.sound.heap (a.fine hstate) (b.fine hstate)
  trans {a b c} h h' := h.trans hstate.sound.heap (a.fine hstate) (b.fine hstate) (c.fine hstate) h'

theorem same_equivalence (hstate : state.Arises) :
    Equivalence fun a b : state.Comparable => state.world.heap.Same a.value b.value where
  refl a := .refl hstate.sound.heap (a.fine hstate) a.acyclic
  symm {a b} h := h.symm hstate.sound.heap (a.fine hstate) (b.fine hstate)
  trans {a b c} h h' := h.trans hstate.sound.heap (a.fine hstate) (b.fine hstate) (c.fine hstate) h'

end EvalState

/-- Among the acyclic values at hand that no double and no complex number is part of, equality and
being the same are equivalence relations, and what is the same is equal. The operators `==`, `!=`,
`is` and `is not` answer as these relations say, and fail only if both values are nested too deeply
for the machine. Equality goes across types: it identifies truth values with numbers, bytes with
byte arrays, frozen sets with sets, and ranges that go through the same numbers. -/
theorem equality_is_equivalence (hstate : state.Arises) :
    let heap := state.world.heap
    Equivalence (fun a b : state.Comparable => heap.Equals a.value b.value) ∧
    Equivalence (fun a b : state.Comparable => heap.Same a.value b.value) ∧
    (∀ a b : state.Comparable, heap.Same a.value b.value → heap.Equals a.value b.value) ∧
    (∀ a b : Value,
      BinaryOperator.equal.Answers heap a b (heap.Equals a b) ∧
      BinaryOperator.notEqual.Answers heap a b (¬heap.Equals a b) ∧
      BinaryOperator.is.Answers heap a b (heap.Same a b) ∧
      BinaryOperator.isNot.Answers heap a b (¬heap.Same a b)) ∧
    (∀ flag n, heap.Equals (.bool flag) (.int n) ↔ n = if flag then 1 else 0) ∧
    (∀ contents id, heap.Equals (.bytes contents) (.bytearray id) ↔
      contents = heap.bytearray id) ∧
    (∀ mark keys id, heap.Equals (.frozenset mark keys) (.set id) ↔
      keys.length = (heap.set id).length ∧
        ∀ key ∈ keys, ∃ other ∈ heap.set id, key.sameKey other = true) ∧
    ∀ first second, heap.Equals (.range first) (.range second) ↔
      first.toList = second.toList := by
  intro heap
  refine ⟨EvalState.equals_equivalence hstate, EvalState.same_equivalence hstate, ?_, ?_, ?_⟩
  · exact fun a b hsame => hsame.equals hstate.sound.heap (a.fine hstate) a.acyclic
  · intro a b
    exact ⟨BinaryOperator.equal_answers heap a b, BinaryOperator.not_equal_answers heap a b,
      BinaryOperator.is_answers heap a b, BinaryOperator.is_not_answers heap a b⟩
  · exact ⟨fun _ _ => Heap.equals_bool_int_iff, fun _ _ => Heap.equals_bytes_bytearray_iff,
      fun _ _ _ => Heap.equals_frozenset_set_iff, fun _ _ => Heap.equals_range_iff⟩

/-- The lists `[1, {"x"}]` and `[true, {"x"}]` are equal either way and not the same. -/
theorem equality_of_lists :
    let statements : List Expr := [.letBind "a" (.list [.int 1, .set [.string "x"]]),
      .letBind "b" (.list [.bool true, .set [.string "x"]])]
    let state := EvalState.afterStatements statements
    state.Arises ∧ ∃ a b : state.Comparable,
      state.scope.get? "a" = some a.value ∧ state.scope.get? "b" = some b.value ∧
        state.world.heap.Equals a.value b.value ∧ state.world.heap.Equals b.value a.value ∧
        state.world.heap.Same a.value a.value ∧ state.world.heap.Equals a.value a.value ∧
        ¬state.world.heap.Same a.value b.value := by
  intro statements state
  have hends : (Eval.body (Eval.evaluate 5) statements
      (Interpreter.fresh 1000 (Console.ofInput "")).started).1 = .ok .null := rfl
  have harises : state.Arises := .occurs (EvalState.occurs_after_statements (Prod.ext hends rfl))
  have ha : state.scope.get? "a" = some (.list 0) := rfl
  have hb : state.scope.get? "b" = some (.list 1) := rfl
  have haplain : state.world.heap.plainWithin 3 (.list 0) = true := rfl
  have hbplain : state.world.heap.plainWithin 3 (.list 1) = true := rfl
  let first : state.Comparable := .ofPlain (.held (.bound ha)) haplain
  let second : state.Comparable := .ofPlain (.held (.bound hb)) hbplain
  have hequals : state.world.heap.Equals first.value second.value := ⟨2, rfl⟩
  obtain ⟨hequivalence, hsame, himplies, -⟩ := equality_is_equivalence harises
  have hitself := hsame.refl first
  refine ⟨harises, first, second, ha, hb, hequals, hequivalence.symm hequals, hitself,
    himplies first first hitself, ?_⟩
  rintro (⟨-, heq⟩ | ⟨himmutable, -⟩)
  · cases heq
  · cases himmutable

end Script
