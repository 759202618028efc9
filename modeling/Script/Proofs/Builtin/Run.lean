import Script.Proofs.Builtin.Escapes
import Script.Proofs.Builtin.Procedure
import Script.Proofs.Heap.Room
import Script.Proofs.Heap.Shown

/-!
# Running built-in operations

An operation that succeeds hands its result on to what follows it, a method that is called with as
many arguments as it takes runs, and an operator has the result of its operation.
-/

namespace Script

namespace Action

variable {α β : Type} {action : Action α} {heap after : Heap} {result : α}

theorem bind_run {next : α → Action β} (h : action heap = .ok (result, after)) :
    (action >>= next) heap = next result after := by
  show (action heap >>= fun pair => next pair.1 pair.2) = _
  rw [h]
  rfl

/-- An action that goes on after another fails where the other does. -/
theorem bind_error {failure : Failure} {next : α → Action β}
    (h : action heap = .error failure) : (action >>= next) heap = .error failure := by
  show (action heap >>= fun pair => next pair.1 pair.2) = _
  rw [h]
  rfl

theorem ensure_hashable_run {key : Value} (h : key.isHashable = true) :
    ensureHashable key heap = .ok ((), heap) := by
  rw [ensureHashable, h]
  rfl

theorem ensure_all_hashable_run {keys : List Value} (h : ∀ key ∈ keys, key.isHashable = true) :
    keys.forM ensureHashable heap = .ok ((), heap) := by
  induction keys with
  | nil => rfl
  | cons key keys ih =>
      obtain ⟨hkey, hrest⟩ := List.forall_mem_cons.mp h
      exact (bind_run (ensure_hashable_run hkey)).trans (ih hrest)

end Action

namespace Builtin

open Script.Action

variable {heap : Heap} {receiver : Value} {name : String} {items : List Value} {method : Method}

theorem call_method_run (hmethod : method? heap receiver name = some method)
    (hcount : method.minimum ≤ items.length ∧ items.length ≤ method.maximum) :
    callMethod receiver name items heap = method.run items heap := by
  have hfits : (items.length < method.minimum || method.maximum < items.length) = false := by
    simp [hcount.1, hcount.2]
  unfold callMethod
  rw [get_bind_run, hmethod]
  dsimp only
  rw [hfits]
  rfl

theorem call_unary_run {run : Value → Action Value} {item : Value}
    (hmethod : method? heap receiver name = some (.unary run)) :
    callMethod receiver name [item] heap = run item heap :=
  call_method_run hmethod ⟨Nat.le_refl 1, Nat.le_refl 1⟩

theorem call_nullary_run {run : Action Value}
    (hmethod : method? heap receiver name = some (.nullary run)) :
    callMethod receiver name [] heap = run heap :=
  call_method_run hmethod ⟨Nat.le_refl 0, Nat.le_refl 0⟩

theorem call_optional_run {run : Value → Action Value} {item : Value}
    (hmethod : method? heap receiver name = some (.optional run)) :
    callMethod receiver name [item] heap = run item heap :=
  call_method_run hmethod ⟨Nat.zero_le 1, Nat.le_refl 1⟩

/-- What is left out is `null`. -/
theorem call_default_run {run : Value → Action Value}
    (hmethod : method? heap receiver name = some (.optional run)) :
    callMethod receiver name [] heap = run .null heap :=
  call_method_run hmethod ⟨Nat.le_refl 0, Nat.zero_le 1⟩

theorem compute_str_run {value : Value} {text : String} (h : heap.display value = .ok text) :
    compute .str [value] heap = .ok (.str text, heap) := by
  show (ofFault (heap.display value) >>= fun text => pure (Value.str text)) heap = _
  rw [h]
  rfl

theorem keys_of_run {value : Value} {keys : List Value}
    (hitems : itemsOf value heap = .ok (keys, heap))
    (hhashable : ∀ key ∈ keys, key.isHashable = true) :
    keysOf value heap = .ok (keys, heap) := by
  unfold keysOf
  rw [bind_run hitems, bind_run (ensure_all_hashable_run hhashable)]
  rfl

end Builtin

/-- The action has a result. -/
def Heap.Returns (heap : Heap) (action : Action Value) (result : Value) : Prop :=
  ∃ after, action heap = .ok (result, after)

namespace Heap

/-- A list that is made holds what it is made of. -/
theorem list_push (heap : Heap) (items : List Value) :
    ({ heap with lists := heap.lists.push items.toArray }.list heap.lists.next).toList = items := by
  show ((heap.lists.push items.toArray).get heap.lists.next).toList = _
  rw [Store.get_push, if_pos rfl]

/-- Making a list leaves the lists that there are as they are. -/
theorem list_push_of_ne (heap : Heap) (items : Array Value) {id : ListId}
    (h : id ≠ heap.lists.next) :
    list { heap with lists := heap.lists.push items } id = heap.list id := by
  show (heap.lists.push items).get id = _
  rw [Store.get_push, if_neg h]
  rfl

/-- A change of the items of a list looks at no more than these items. -/
theorem set_list_run (heap : Heap) (id : ListId) (change : Array Value → Array Value) :
    Action.setList id change heap = .ok ((), heap.withList id (change (heap.list id))) := by
  show Except.ok ((), { heap with lists := heap.lists.modify id change }) = _
  rw [Store.modify_eq]
  rfl

theorem equal_within_ints (heap : Heap) (m n : Int) :
    heap.equalWithin 1 (.int m) (.int n) = .ok (decide (m = n)) := by
  have hatom : heap.equalWithin 1 (.int m) (.int n) =
      .ok (some (compare m n) == some Ordering.eq) := rfl
  rw [hatom]
  congr 1
  rw [Bool.eq_iff_iff]
  simp

theorem equal_ints (heap : Heap) (m n : Int) :
    heap.equal (.int m) (.int n) = .ok (decide (m = n)) :=
  equal_of_within (heap.equal_within_ints m n) (by decide)

theorem same_or_equal_ints (heap : Heap) (m n : Int) :
    heap.sameOrEqual (.int m) (.int n) = .ok (decide (m = n)) :=
  heap.equal_ints m n

end Heap

theorem BinaryOperator.apply_run {operator : BinaryOperator} {a b result : Value}
    {heap after : Heap} (h : operator.operation a b heap = .ok (result, after)) :
    operator.apply a b heap = .ok (result, after) := by
  rw [apply, h]

end Script
