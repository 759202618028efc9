import Script.Proofs.Heap.Ordering

/-!
# Asking for the order of two values

The four operators `<`, `>`, `<=` and `>=` ask about one thing, the rank of two values
(`Heap.rank`), and answer as it says (`BinaryOperator.gives_rank`). Hence they are consistent with
each other and with `==` on numbers, texts, bytes, lists and tuples
(`BinaryOperator.ordering_is_consistent`).
-/

namespace Script

namespace Heap.Comparison

/-- What is answered if it is known how two values are ordered. -/
inductive Tells (comparison : Comparison) :
    Except Fault (Option Ordering) → Except Failure Bool → Prop where
  | ordered (order : Ordering) : Tells comparison (.ok (some order)) (.ok (comparison.holds order))
  | unordered (message : String) : Tells comparison (.ok none) (.error (.raised .typeError message))
  | fault (fault : Fault) : Tells comparison (.error fault) (.error (.fault fault))

end Heap.Comparison

namespace Heap

open Comparison (Tells)

variable {heap : Heap} {depth : Nat} {a b c : Value} {comparison : Comparison}

/-- Whether two rows are ordered as asked for. -/
def orderedItems (heap : Heap) (comparison : Comparison) (depth : Nat) (xs ys : List Value) :
    Except Failure Bool := do
  match ← liftFault (firstDifference (heap.agree depth) xs ys) with
  | .inl (x, y) => heap.orderedWithin comparison depth x y
  | .inr order => return comparison.holds order

theorem tells_items {xs ys : List Value} (hxs : ∀ x ∈ xs, heap.Ordinary x)
    (hys : ∀ y ∈ ys, heap.Ordinary y)
    (h : ∀ {x y}, heap.Ordinary x → heap.Ordinary y →
      comparison.Tells (heap.rankWithin depth x y) (heap.orderedWithin comparison depth x y)) :
    comparison.Tells (heap.rankItems depth xs ys) (heap.orderedItems comparison depth xs ys) := by
  induction xs generalizing ys with
  | nil => cases ys <;> exact .ordered _
  | cons x xs ih =>
      cases ys with
      | nil => exact .ordered _
      | cons y ys =>
          obtain ⟨hx, hxs⟩ := List.forall_mem_cons.mp hxs
          obtain ⟨hy, hys⟩ := List.forall_mem_cons.mp hys
          have hrank : heap.rankItems depth (x :: xs) (y :: ys) =
              heap.agree depth x y >>= fun same =>
                if same then heap.rankItems depth xs ys else heap.rankWithin depth x y := rfl
          have hitems : heap.orderedItems comparison depth (x :: xs) (y :: ys) =
              liftFault (heap.agree depth x y) >>= fun same =>
                if same then heap.orderedItems comparison depth xs ys
                else heap.orderedWithin comparison depth x y := by
            have hfirst : firstDifference (heap.agree depth) (x :: xs) (y :: ys) =
                heap.agree depth x y >>= fun same =>
                  if same then firstDifference (heap.agree depth) xs ys
                  else return .inl (x, y) := rfl
            unfold orderedItems
            rw [hfirst]
            cases heap.agree depth x y with
            | error fault => rfl
            | ok same => cases same <;> rfl
          rw [hrank, hitems]
          cases heap.agree depth x y with
          | error fault => exact .fault fault
          | ok same =>
              cases same with
              | true => exact ih hxs hys
              | false => exact h hx hy

theorem tells_ordered_within (ha : heap.Ordinary a) (hb : heap.Ordinary b) :
    comparison.Tells (heap.rankWithin depth a b) (heap.orderedWithin comparison depth a b) := by
  induction depth generalizing a b with
  | zero => exact .fault .recursion
  | succ depth ih =>
      cases ha with
      | list hxs =>
          cases hb with
          | list hys => exact tells_items hxs hys ih
          | _ => exact .unordered _
      | tuple hxs =>
          cases hb with
          | tuple hys => exact tells_items hxs hys ih
          | _ => exact .unordered _
      | _ => cases hb <;> first | exact .unordered _ | exact .ordered _

/-- How two values are ordered that stand on their own: truth values and null are not, and lists and
tuples only with their own kind. -/
def rank (heap : Heap) (a b : Value) : Except Fault (Option Ordering) :=
  if heap.areOrdered a b then heap.rankWithin heap.nestingLimit a b else .ok none

theorem tells_ordered (ha : heap.Ordinary a) (hb : heap.Ordinary b) :
    comparison.Tells (heap.rank a b) (heap.ordered comparison a b) := by
  unfold rank ordered
  split
  · exact tells_ordered_within ha hb
  · exact .unordered _

theorem are_ordered_comm (ha : heap.Ordinary a) (hb : heap.Ordinary b) :
    heap.areOrdered b a = heap.areOrdered a b := by
  cases ha <;> cases hb <;> rfl

theorem are_ordered_trans (ha : heap.Ordinary a) (hb : heap.Ordinary b) (hc : heap.Ordinary c)
    (h : heap.areOrdered a b = true) (h' : heap.areOrdered b c = true) :
    heap.areOrdered a c = true := by
  cases ha <;> cases hb <;> cases h
  all_goals cases hc <;> first | rfl | cases h'

theorem rank_swap (ha : heap.Ordinary a) (hb : heap.Ordinary b) :
    heap.rank b a = (heap.rank a b).map (Option.map Ordering.swap) := by
  unfold rank
  rw [are_ordered_comm ha hb]
  split
  · exact rank_within_swap ha hb
  · rfl

theorem rank_within_of_rank {order : Ordering} (h : heap.rank a b = .ok (some order)) :
    heap.areOrdered a b = true ∧ heap.rankWithin heap.nestingLimit a b = .ok (some order) := by
  unfold rank at h
  split at h
  · rename_i hordered
    exact ⟨hordered, h⟩
  · cases h

theorem rank_trans (ha : heap.Ordinary a) (hb : heap.Ordinary b) (hc : heap.Ordinary c)
    (h : heap.rank a b = .ok (some .lt)) (h' : heap.rank b c = .ok (some .lt)) :
    heap.rank a c = .ok (some .lt) := by
  obtain ⟨hordered, h⟩ := rank_within_of_rank h
  obtain ⟨hordered', h'⟩ := rank_within_of_rank h'
  rw [rank, if_pos (are_ordered_trans ha hb hc hordered hordered')]
  exact rank_within_trans ha hb hc h h'

theorem rank_error {fault : Fault} (h : heap.rank a b = .error fault) :
    fault = .recursion ∧ ¬heap.NestsWithin heap.nestingLimit a ∧
      ¬heap.NestsWithin heap.nestingLimit b := by
  unfold rank at h
  split at h
  · exact rank_within_error h
  · cases h

end Heap

namespace BinaryOperator

open Heap (Comparison)

variable {heap : Heap} {a b c : Value} {comparison : Comparison} {order : Ordering}

/-- The operator that asks for an order. -/
def ofComparison : Comparison → BinaryOperator
  | .less => .less
  | .greater => .greater
  | .lessEqual => .lessEqual
  | .greaterEqual => .greaterEqual

/-- What the operator for a comparison gives if it is known how two values are ordered. -/
inductive Gives (heap : Heap) (comparison : Comparison) (a b : Value) :
    Except Fault (Option Ordering) → Prop where
  | answer {order : Ordering}
      (h : (ofComparison comparison).apply a b heap = .ok (.bool (comparison.holds order), heap)) :
      Gives heap comparison a b (.ok (some order))
  | refused {message : String}
      (h : (ofComparison comparison).apply a b heap = .error (.raised .typeError message)) :
      Gives heap comparison a b (.ok none)
  | tooDeep (h : (ofComparison comparison).apply a b heap = .error (.fault .recursion)) :
      Gives heap comparison a b (.error .recursion)

/-- The answer to a question about an order as what an operator gives. -/
def answering : Except Failure Bool → Action Value
  | .ok holds => return .bool holds
  | .error failure => throw failure

theorem operation_of_comparison (heap : Heap) (comparison : Comparison) (a b : Value) :
    (ofComparison comparison).operation a b heap =
      answering (heap.ordered comparison a b) heap := by
  cases comparison <;> rfl

/-- An order that is found within a few levels is what the operator answers by. -/
theorem apply_of_ordered_within (comparison : Comparison) {depth : Nat} {result : Bool}
    (hordered : heap.areOrdered a b = true)
    (h : heap.orderedWithin comparison depth a b = .ok result)
    (hle : depth ≤ hostFrames / framesPerValue) :
    (ofComparison comparison).apply a b heap = .ok (.bool result, heap) := by
  have hresult : heap.ordered comparison a b = .ok result := by
    rw [Heap.ordered, if_pos hordered]
    exact (Heap.ordered_within_deepens comparison (hle.trans heap.rest_le_nesting_limit) a b).ok h
  rw [apply, operation_of_comparison, hresult]
  rfl

theorem gives_rank (heap : Heap) (comparison : Comparison) (ha : heap.Ordinary a)
    (hb : heap.Ordinary b) : Gives heap comparison a b (heap.rank a b) := by
  have hrun := operation_of_comparison heap comparison a b
  have htells : comparison.Tells (heap.rank a b) (heap.ordered comparison a b) :=
    Heap.tells_ordered ha hb
  generalize hrank : heap.rank a b = rank at htells ⊢
  generalize heap.ordered comparison a b = answer at htells hrun
  cases htells with
  | ordered order => exact .answer (by rw [apply, hrun]; rfl)
  | unordered message => exact .refused (by rw [apply, hrun]; rfl)
  | fault fault =>
      obtain ⟨rfl, -⟩ := Heap.rank_error hrank
      exact .tooDeep (by rw [apply, hrun]; rfl)

/-- Two questions about a pair of values have the same answer, or both are refused with a
`TypeError`, or the machine gives up on both because both values are nested too deeply for it. -/
inductive Concur (heap : Heap) (a b : Value) (first second : Action Value) : Prop where
  | answer {result : Bool} (h : first heap = .ok (.bool result, heap))
      (h' : second heap = .ok (.bool result, heap))
  | refused {message message' : String} (h : first heap = .error (.raised .typeError message))
      (h' : second heap = .error (.raised .typeError message'))
  | tooDeep (h : first heap = .error (.fault .recursion))
      (h' : second heap = .error (.fault .recursion)) (ha : ¬heap.NestsWithin heap.nestingLimit a)
      (hb : ¬heap.NestsWithin heap.nestingLimit b)

/-- Asking the other way round about swapped values is asking the same. -/
theorem concur_swap (comparison converse : Comparison) (ha : heap.Ordinary a) (hb : heap.Ordinary b)
    (hconverse : ∀ order : Ordering, converse.holds order.swap = comparison.holds order) :
    Concur heap a b ((ofComparison comparison).apply a b)
      ((ofComparison converse).apply b a) := by
  have hfirst := gives_rank heap comparison ha hb
  have hsecond := gives_rank heap converse hb ha
  rw [Heap.rank_swap ha hb] at hsecond
  generalize hrank : heap.rank a b = rank at hfirst hsecond
  cases hfirst with
  | answer h =>
      cases hsecond with
      | answer h' =>
          rw [hconverse] at h'
          exact .answer h h'
  | refused h =>
      cases hsecond with
      | refused h' => exact .refused h h'
  | tooDeep h =>
      cases hsecond with
      | tooDeep h' => exact .tooDeep h h' (Heap.rank_error hrank).2.1 (Heap.rank_error hrank).2.2

theorem gives_answer (comparison : Comparison) (ha : heap.Ordinary a) (hb : heap.Ordinary b)
    (h : heap.rank a b = .ok (some order)) :
    (ofComparison comparison).apply a b heap = .ok (.bool (comparison.holds order), heap) := by
  have hgives := gives_rank heap comparison ha hb
  rw [h] at hgives
  cases hgives with
  | answer h => exact h

theorem rank_of_answer (comparison : Comparison) {result : Value × Heap} (ha : heap.Ordinary a)
    (hb : heap.Ordinary b)
    (h : (ofComparison comparison).apply a b heap = .ok result) :
    ∃ order, heap.rank a b = .ok (some order) ∧
      result = (.bool (comparison.holds order), heap) := by
  have hgives := gives_rank heap comparison ha hb
  generalize heap.rank a b = rank at hgives ⊢
  cases hgives with
  | @answer order h' =>
      cases h'.symm.trans h
      exact ⟨order, rfl, rfl⟩
  | refused h' => cases h'.symm.trans h
  | tooDeep h' => cases h'.symm.trans h

/-- Whether a question about an order is refused does not depend on the question. -/
theorem refusals_alike (comparison other : Comparison) (ha : heap.Ordinary a)
    (hb : heap.Ordinary b)
    (h : ∃ failure, (ofComparison comparison).apply a b heap = .error failure) :
    ∃ failure, (ofComparison other).apply a b heap = .error failure := by
  obtain ⟨failure, h⟩ := h
  cases hother : (ofComparison other).apply a b heap with
  | error failure => exact ⟨failure, rfl⟩
  | ok result =>
      obtain ⟨order, hrank, -⟩ := rank_of_answer other ha hb hother
      cases h.symm.trans (gives_answer comparison ha hb hrank)

theorem rank_of_less (ha : heap.Ordinary a) (hb : heap.Ordinary b)
    (h : less.apply a b heap = .ok (.bool true, heap)) : heap.rank a b = .ok (some .lt) := by
  obtain ⟨order, hrank, hresult⟩ := rank_of_answer .less ha hb h
  cases order with
  | lt => exact hrank
  | eq | gt => cases hresult

/-- Numbers, texts, bytes, and lists and tuples nested to any finite depth, are ordered
consistently. Asking whether one comes before the other, or is no later, is the same as asking the
converse of the other: the same answer, or a `TypeError` both times, or both values are nested more
deeply than the machine can follow. Whether an order is refused does not depend on which is asked
for. If it is not refused, exactly one of `a < b`, `a == b` and `b < a` is true, and `a <= b` says
that one of the first two is. And what comes before is transitive. -/
theorem ordering_is_consistent (ha : heap.Ordinary a) (hb : heap.Ordinary b)
    (hc : heap.Ordinary c) :
    Concur heap a b (less.apply a b) (greater.apply b a) ∧
    Concur heap a b (lessEqual.apply a b) (greaterEqual.apply b a) ∧
    ((∃ failure, less.apply a b heap = .error failure) ↔
      ∃ failure, lessEqual.apply a b heap = .error failure) ∧
    (∀ result, less.apply a b heap = .ok result →
      ∃ before same after : Bool,
        result = (.bool before, heap) ∧
        equal.apply a b heap = .ok (.bool same, heap) ∧
        less.apply b a heap = .ok (.bool after, heap) ∧
        [before, same, after].count true = 1 ∧
        lessEqual.apply a b heap = .ok (.bool (before || same), heap)) ∧
    (less.apply a b heap = .ok (.bool true, heap) → less.apply b c heap = .ok (.bool true, heap) →
      less.apply a c heap = .ok (.bool true, heap)) := by
  have hconverse (order : Ordering) :
      Comparison.greater.holds order.swap = Comparison.less.holds order := by
    cases order <;> rfl
  have hconverse' (order : Ordering) :
      Comparison.greaterEqual.holds order.swap = Comparison.lessEqual.holds order := by
    cases order <;> rfl
  refine ⟨concur_swap .less .greater ha hb hconverse,
    concur_swap .lessEqual .greaterEqual ha hb hconverse',
    ⟨refusals_alike .less .lessEqual ha hb, refusals_alike .lessEqual .less ha hb⟩,
    fun result h => ?_, fun hab hbc => ?_⟩
  · obtain ⟨order, hrank, rfl⟩ := rank_of_answer .less ha hb h
    have hback : heap.rank b a = .ok (some order.swap) := by
      rw [Heap.rank_swap ha hb, hrank]
      rfl
    have hequal := Heap.equal_of_rank ha hb (Heap.rank_within_of_rank hrank).2
    have hlessEqual := gives_answer .lessEqual ha hb hrank
    refine ⟨_, _, _, rfl, equal_apply hequal, gives_answer .less hb ha hback, ?_, ?_⟩
    · cases order <;> rfl
    · cases order <;> exact hlessEqual
  · have hrank := Heap.rank_trans ha hb hc (rank_of_less ha hb hab) (rank_of_less hb hc hbc)
    exact gives_answer .less ha hc hrank

/-- `[null, 1, [1]]` comes before `[null, true, [2]]`, and that comes before `[null, 2]`. -/
theorem ordering_is_consistent_in_lists :
    let items : Array (Array Value) := #[#[.int 1], #[.null, .int 1, .list 0], #[.int 2],
      #[.null, .bool true, .list 2], #[.null, .int 2]]
    let heap : Heap := { Heap.empty 1000 with lists := ⟨items⟩ }
    heap.Ordinary (.list 1) ∧ heap.Ordinary (.list 3) ∧ heap.Ordinary (.list 4) ∧
      less.apply (.list 1) (.list 3) heap = .ok (.bool true, heap) ∧
      less.apply (.list 3) (.list 4) heap = .ok (.bool true, heap) ∧
      less.apply (.list 1) (.list 4) heap = .ok (.bool true, heap) := by
  intro items heap
  have hfirst : heap.Ordinary (.list 0) := .list (List.forall_mem_singleton.mpr (.int 1))
  have hsecond : heap.Ordinary (.list 2) := .list (List.forall_mem_singleton.mpr (.int 2))
  have ha : heap.Ordinary (.list 1) := .list (List.forall_mem_cons.mpr ⟨.null,
    List.forall_mem_cons.mpr ⟨.int 1, List.forall_mem_singleton.mpr hfirst⟩⟩)
  have hb : heap.Ordinary (.list 3) := .list (List.forall_mem_cons.mpr ⟨.null,
    List.forall_mem_cons.mpr ⟨.bool true, List.forall_mem_singleton.mpr hsecond⟩⟩)
  have hc : heap.Ordinary (.list 4) := .list (List.forall_mem_cons.mpr ⟨.null,
    List.forall_mem_singleton.mpr (.int 2)⟩)
  have hwithin : heap.orderedWithin .less 4 (.list 1) (.list 3) = .ok true := rfl
  have hwithin' : heap.orderedWithin .less 4 (.list 3) (.list 4) = .ok true := rfl
  have hab : less.apply (.list 1) (.list 3) heap = .ok (.bool true, heap) :=
    apply_of_ordered_within .less rfl hwithin (by decide)
  have hbc : less.apply (.list 3) (.list 4) heap = .ok (.bool true, heap) :=
    apply_of_ordered_within .less rfl hwithin' (by decide)
  exact ⟨ha, hb, hc, hab, hbc, (ordering_is_consistent ha hb hc).2.2.2.2 hab hbc⟩

end BinaryOperator

end Script
