import Script.Eval.Object
import Script.Proofs.Builtin.Run
import Script.Proofs.Heap.Equality
import Script.Proofs.Value.Range

/-!
# Ranges and their lists

What a program finds out about a range by arithmetic is what it finds out about the list that it
makes of the range (`Heap.ranges_are_their_lists`).
-/

namespace Script

open Script.Action Builtin

/-- The members of a range fit into memory. -/
def Range.Fits (range : Range) : Prop :=
  range.length ≤ Arithmetic.maxUnits

namespace Heap

variable {heap after : Heap} {range first second : Range} {a b : ListId}

/-- The action has a result if what it makes fits into memory, and runs out of memory otherwise. -/
def ReturnsIfFits (heap : Heap) (fits : Prop) (action : Action Value) (result : Value) : Prop :=
  (fits → heap.Returns action result) ∧ (¬fits → action heap = .error (.fault .memory))

/-- The list of the members of a range, as a program makes it. -/
def listOf (range : Range) : Action Value :=
  compute .list [.range range]

/-- Whether the lists of two ranges are equal. -/
def listsEqual (first second : Range) : Action Value := do
  let items ← listOf first
  let others ← listOf second
  BinaryOperator.equal.apply items others

/-- What holds of a range and the list of its members. -/
structure RangeLaws (heap : Heap) (range : Range) (members : List Int) : Prop where
  /-- The function `range` makes the range of its bounds. -/
  made : compute .range [.int range.start, .int range.stop, .int range.step] heap =
    .ok (.range range, heap)
  /-- A place holds the number that so many steps lead to if that lies before the stop. -/
  place (i : Nat) : members[i]? =
    if range.before (range.start + i * range.step) then some (range.start + i * range.step)
    else none
  /-- The members are the numbers of that kind. -/
  mem (n : Int) : n ∈ members ↔
    ∃ i : Nat, n = range.start + i * range.step ∧ range.before n = true
  /-- The list that a program makes of the range holds the members. -/
  listed (h : range.Fits) : ∃ id after, listOf range heap = .ok (.list id, after) ∧
    (after.list id).toList = members.map .int
  length : heap.ReturnsIfFits range.Fits (listOf range >>= fun items => callMethod items "len" [])
    (.int members.length)
  item (index : Int) (h : 0 ≤ index) (h' : index < members.length) :
    heap.Returns (getItem (.range range) (.int index)) (.int (range.start + index * range.step))
  no_item (index : Int) (h : index < 0 ∨ members.length ≤ index) :
    getItem (.range range) (.int index) heap =
      .error (.raised .indexError "range index out of range")
  /-- A number is in the range if it is in the list. -/
  within (n : Int) : ∃ present : Bool,
    heap.Returns (BinaryOperator.within.apply (.int n) (.range range)) (.bool present) ∧
    heap.ReturnsIfFits range.Fits (listOf range >>= BinaryOperator.within.apply (.int n))
      (.bool present) ∧
    (present = true ↔ n ∈ members)
  /-- The range counts as true if the list does, which is if it is not empty. -/
  truthy : ∃ truth : Bool, heap.isTruthy (.range range) = .ok truth ∧
    heap.ReturnsIfFits range.Fits (listOf range >>= fun items => compute .bool [items])
      (.bool truth) ∧
    (truth = true ↔ members ≠ [])

/-! ## Lists of integers -/

theorem any_equal_ints_run (heap : Heap) (n : Int) (members : List Int) :
    Operand.anyEqual (.int n) (members.map .int) heap = .ok (decide (n ∈ members), heap) := by
  induction members with
  | nil => rfl
  | cons member members ih =>
      show (ofFault (heap.sameOrEqual (.int member) (.int n)) >>= fun same =>
        if same then return true else Operand.anyEqual (.int n) (members.map .int)) heap = _
      rw [heap.same_or_equal_ints]
      by_cases hsame : member = n
      · simp [hsame, ofFault]
        rfl
      · simp [hsame, Ne.symm hsame, ofFault]
        exact ih

theorem all_agree_ints (heap : Heap) (members others : List Int) :
    allAgree (heap.agree 1) (members.map .int) (others.map .int) =
      .ok (decide (members = others)) := by
  induction members generalizing others with
  | nil => cases others <;> rfl
  | cons member members ih =>
      cases others with
      | nil => rfl
      | cons other others =>
          have hagree : heap.agree 1 (.int member) (.int other) =
              .ok (decide (member = other)) := heap.equal_within_ints member other
          show (heap.agree 1 (.int member) (.int other) >>= _) = _
          rw [hagree]
          by_cases hsame : member = other
          · simp [hsame, ih, bind, Except.bind]
          · simp [hsame, bind, Except.bind]
            rfl

/-- Lists of integers are equal if they hold the same integers. -/
theorem equal_int_lists {members others : List Int}
    (ha : (heap.list a).toList = members.map .int) (hb : (heap.list b).toList = others.map .int) :
    heap.equal (.list a) (.list b) = .ok (decide (members = others)) := by
  have hshapes : heap.equalWithin 2 (.list a) (.list b) =
      (Shape.list (heap.list a).toList).compare (heap.agree 1) (.list (heap.list b).toList) :=
    heap.equal_within_succ _ _ _
  have hequal : heap.equalWithin 2 (.list a) (.list b) = .ok (decide (members = others)) := by
    rw [hshapes, ha, hb]
    dsimp only [Shape.compare]
    by_cases hlength : members.length = others.length
    · rw [if_neg (by simpa using hlength)]
      exact heap.all_agree_ints members others
    · rw [if_pos (by simpa using hlength),
        decide_eq_false (fun heq => hlength (congrArg List.length heq))]
  exact equal_of_within hequal (by decide)

/-! ## Making the list of a range -/

theorem make_range_run (heap : Heap) (range : Range) :
    compute .range [.int range.start, .int range.stop, .int range.step] heap =
      .ok (.range range, heap) := by
  show (if h : range.step = 0 then _ else _ : Action Value) heap = _
  rw [dif_neg range.step_ne_zero]
  rfl

theorem range_length_run (hcount : range.length ≤ Range.maxLength) :
    rangeLength range = .ok range.length :=
  if_pos hcount

/-- Listing a range makes a list of its members, if these fit into memory. -/
theorem list_of_run (hcount : range.length ≤ Range.maxLength) (h : range.Fits) (heap : Heap) :
    listOf range heap = .ok (.list heap.lists.next,
      { heap with lists := heap.lists.push (range.toList.map .int).toArray }) := by
  have hitems : itemsOf (.range range) heap = .ok (range.toList.map .int, heap) := by
    show rangeItems range heap = _
    unfold rangeItems
    rw [range_length_run hcount]
    show (if _ then _ else _ : Action (List Value)) heap = _
    rw [if_neg (Nat.not_lt.mpr h)]
    rfl
  show (itemsOf (.range range) >>= fun items => newList items.toArray) heap = _
  rw [bind_run hitems]
  rfl

theorem list_of_too_long (hcount : range.length ≤ Range.maxLength) (h : ¬range.Fits)
    (heap : Heap) : listOf range heap = .error (.fault .memory) := by
  have hitems : itemsOf (.range range) heap = .error (.fault .memory) := by
    show rangeItems range heap = _
    unfold rangeItems
    rw [range_length_run hcount]
    show (if _ then _ else _ : Action (List Value)) heap = _
    rw [if_pos (Nat.not_le.mp h)]
    rfl
  show (itemsOf (.range range) heap >>= _) = _
  rw [hitems]
  rfl

/-- What can be asked about every list of the members can be asked about the list of a range. -/
theorem returns_of_list (hcount : range.length ≤ Range.maxLength) {next : Value → Action Value}
    {result : Value}
    (h : ∀ id after, (list after id).toList = range.toList.map .int →
      after.Returns (next (.list id)) result) :
    heap.ReturnsIfFits range.Fits (listOf range >>= next) result := by
  refine ⟨fun hfits => ?_, fun hfits => ?_⟩
  · obtain ⟨after, hnext⟩ := h _ _ (heap.list_push (range.toList.map .int))
    exact ⟨after, by rw [bind_run (list_of_run hcount hfits heap), hnext]⟩
  · show (listOf range heap >>= _) = _
    rw [list_of_too_long hcount hfits heap]
    rfl

/-! ## What is asked about a range -/

theorem no_place_run (heap : Heap) {index : Int} (hcount : range.length ≤ Range.maxLength)
    (h : index < 0 ∨ range.length ≤ index) :
    getItem (.range range) (.int index) heap =
      .error (.raised .indexError "range index out of range") := by
  by_cases hnegative : index < 0
  · show (requirePlace _ _ _ _ heap >>= _) = _
    unfold requirePlace
    dsimp only
    rw [if_pos hnegative]
    rfl
  · have hlong : range.length ≤ index.toNat := by omega
    show (requirePlace _ _ _ _ heap >>= _) = _
    unfold requirePlace
    dsimp only
    rw [if_neg hnegative, range_length_run hcount]
    show ((if _ then _ else _ : Action Nat) heap >>= _) = _
    rw [if_pos hlong]
    rfl

theorem place_run (heap : Heap) {index : Int} (hcount : range.length ≤ Range.maxLength)
    (h : 0 ≤ index) (h' : index < range.length) :
    getItem (.range range) (.int index) heap =
      .ok (.int (range.start + index * range.step), heap) := by
  have hshort : ¬range.length ≤ index.toNat := by omega
  have hplace : ((index.toNat : Nat) : Int) = index := Int.toNat_of_nonneg h
  show (requirePlace _ _ _ _ heap >>= _) = _
  unfold requirePlace
  dsimp only
  rw [if_neg (Int.not_lt.mpr h), range_length_run hcount]
  show ((if _ then _ else _ : Action Nat) heap >>= _) = _
  rw [if_neg hshort, ← hplace]
  rfl

theorem within_range_run (heap : Heap) (range : Range) (n : Int) :
    heap.Returns (BinaryOperator.within.apply (.int n) (.range range))
      (.bool (decide (n ∈ range.toList))) := by
  have hcontains : range.contains n = decide (n ∈ range.toList) := by
    rw [Bool.eq_iff_iff, Range.contains_iff, decide_eq_true_iff]
  exact ⟨heap, hcontains ▸ rfl⟩

/-- The laws hold of every range that can be counted. -/
theorem range_laws (heap : Heap) (hcount : range.length ≤ Range.maxLength) :
    heap.RangeLaws range range.toList where
  made := heap.make_range_run range
  place := range.get_to_list
  mem _ := Range.mem_to_list_iff
  listed h := ⟨_, _, list_of_run hcount h heap, heap.list_push _⟩
  length := by
    refine returns_of_list hcount fun id after hitems => ⟨after, ?_⟩
    let length : Action Value := do return .int ((← get).list id).size
    have hlength : callMethod (.list id) "len" [] after = length after := call_nullary_run rfl
    rw [hlength]
    show Except.ok (Value.int (list after id).size, after) = _
    rw [← Array.length_toList, hitems, List.length_map]
  item index h h' := ⟨heap, heap.place_run hcount h (by simpa using h')⟩
  no_item index h := heap.no_place_run hcount (by simpa using h)
  within n := by
    refine ⟨_, heap.within_range_run range n, ?_, decide_eq_true_iff⟩
    refine returns_of_list hcount fun id after hitems => ⟨after, BinaryOperator.apply_run ?_⟩
    show (Operand.anyEqual (.int n) (list after id).toList >>= fun present =>
      pure (Value.bool present)) after = _
    rw [hitems, bind_run (after.any_equal_ints_run n range.toList)]
    rfl
  truthy := by
    have hempty : (range.length != 0) = !range.toList.isEmpty := by
      rw [← range.length_to_list]
      cases range.toList <;> rfl
    refine ⟨!range.toList.isEmpty, ?_, ?_, by simp⟩
    · show (rangeLength range >>= _) = _
      rw [range_length_run hcount, ← hempty]
      rfl
    · refine returns_of_list hcount fun id after hitems => ⟨after, ?_⟩
      show Except.ok (Value.bool !(list after id).isEmpty, after) = _
      rw [← Array.isEmpty_toList, hitems, List.isEmpty_map]

/-! ## Two ranges -/

theorem equal_ranges (heap : Heap) (first second : Range) :
    heap.equal (.range first) (.range second) =
      .ok (decide (first.toList = second.toList)) := by
  have hsame : first.sameMembers second = decide (first.toList = second.toList) := by
    rw [Bool.eq_iff_iff, Range.same_members_iff_to_list, decide_eq_true_iff]
  have hatom : heap.equalWithin 1 (.range first) (.range second) =
      .ok (first.sameMembers second) := rfl
  rw [equal_of_within hatom (by decide), hsame]

theorem returns_lists_equal (hfirst : first.length ≤ Range.maxLength)
    (hsecond : second.length ≤ Range.maxLength) (heap : Heap) :
    heap.ReturnsIfFits (first.Fits ∧ second.Fits) (listsEqual first second)
      (.bool (decide (first.toList = second.toList))) := by
  unfold listsEqual
  by_cases hfits : first.Fits
  · let items := (first.toList.map Value.int).toArray
    let middle : Heap := { heap with lists := heap.lists.push items }
    have hrun : listOf first heap = .ok (.list heap.lists.next, middle) :=
      list_of_run hfirst hfits heap
    by_cases hfits' : second.Fits
    · let others := (second.toList.map Value.int).toArray
      let after : Heap := { middle with lists := middle.lists.push others }
      have hrun' : listOf second middle = .ok (.list middle.lists.next, after) :=
        list_of_run hsecond hfits' middle
      have hnew : heap.lists.next ≠ middle.lists.next := by
        rw [Store.next_push]
        omega
      have hitems : (list after heap.lists.next).toList = first.toList.map .int := by
        rw [list_push_of_ne middle others hnew]
        exact heap.list_push _
      have hequal := equal_int_lists hitems (middle.list_push (second.toList.map .int))
      refine ⟨fun _ => ⟨after, ?_⟩, fun h => absurd ⟨hfits, hfits'⟩ h⟩
      rw [bind_run hrun, bind_run hrun', BinaryOperator.equal_apply hequal]
    · refine ⟨fun h => absurd h.2 hfits', fun _ => ?_⟩
      rw [bind_run hrun]
      show (listOf second middle >>= _) = _
      rw [list_of_too_long hsecond hfits' middle]
      rfl
  · refine ⟨fun h => absurd h.1 hfits, fun _ => ?_⟩
    show (listOf first heap >>= _) = _
    rw [list_of_too_long hfirst hfits heap]
    rfl

/-- Ranges that can be counted behave like the lists of their members, and two of them are equal if
these lists are. -/
theorem ranges_are_their_lists (heap : Heap) (hfirst : first.length ≤ Range.maxLength)
    (hsecond : second.length ≤ Range.maxLength) :
    ∃ members others same, heap.RangeLaws first members ∧ heap.RangeLaws second others ∧
      heap.Returns (BinaryOperator.equal.apply (.range first) (.range second)) (.bool same) ∧
      heap.ReturnsIfFits (first.Fits ∧ second.Fits) (listsEqual first second) (.bool same) ∧
      (same = true ↔ members = others) :=
  ⟨first.toList, second.toList, _, heap.range_laws hfirst, heap.range_laws hsecond,
    ⟨heap, BinaryOperator.equal_apply (heap.equal_ranges first second)⟩,
    returns_lists_equal hfirst hsecond heap, decide_eq_true_iff⟩

/-- Downwards in steps of three from ten, the stops three and two leave out the same numbers. -/
theorem ranges_are_their_lists_downwards :
    let first : Range := ⟨10, 3, -3, by decide⟩
    let second : Range := ⟨10, 2, -3, by decide⟩
    first.length ≤ Range.maxLength ∧ second.length ≤ Range.maxLength ∧
      first.toList = [10, 7, 4] ∧ second.toList = [10, 7, 4] ∧
      ∃ members others same, (Heap.empty 1000).RangeLaws first members ∧
        (Heap.empty 1000).RangeLaws second others ∧
        (Heap.empty 1000).Returns (BinaryOperator.equal.apply (.range first) (.range second))
          (.bool same) ∧
        (Heap.empty 1000).ReturnsIfFits (first.Fits ∧ second.Fits) (listsEqual first second)
          (.bool same) ∧
        (same = true ↔ members = others) := by
  intro first second
  have hfirst : first.length ≤ Range.maxLength := by decide
  have hsecond : second.length ≤ Range.maxLength := by decide
  exact ⟨hfirst, hsecond, by decide, by decide,
    ranges_are_their_lists (Heap.empty 1000) hfirst hsecond⟩

end Heap

end Script
