import Mathlib.Data.Set.Card
import Script.Proofs.Builtin.Run
import Script.Proofs.Eval.Comparison
import Script.Proofs.Heap.NestedAlike

/-!
# Looking for a value

`in`, `count`, `index` and `remove` each go through the items of a list or tuple and compare them
with a value. All of them agree on at which places the value is (`Heap.Places`): whether there is
one, how many there are, which is the first, and what is left when the item there is taken out
(`Heap.SearchLaws`, `Heap.RemoveLaws`). Each scan is right about any row of items whose comparisons
with the value are (`Heap.Tells`).
-/

namespace Script

open Relation Script.Action Script.Builtin

attribute [local instance] KnownClasses.all

/-! ## Places in a row -/

section Rows

variable {truth : Value → Prop} {item : Value} {items : List Value} {place : Nat}

/-- The places of the items of which something is true. -/
def placesOf (truth : Value → Prop) (items : List Value) : Set Nat :=
  {place | ∃ item, items[place]? = some item ∧ truth item}

theorem places_congr {truth' : Value → Prop} (h : ∀ item ∈ items, truth item ↔ truth' item) :
    placesOf truth items = placesOf truth' items :=
  Set.ext fun _ => exists_congr fun item => and_congr_right fun hitem =>
    h item (List.mem_of_getElem? hitem)

theorem nonempty_places_iff : (placesOf truth items).Nonempty ↔ ∃ item ∈ items, truth item := by
  constructor
  · rintro ⟨place, item, hitem, htruth⟩
    exact ⟨item, List.mem_of_getElem? hitem, htruth⟩
  · rintro ⟨item, hitem, htruth⟩
    obtain ⟨place, hplace⟩ := List.mem_iff_getElem?.mp hitem
    exact ⟨place, item, hplace, htruth⟩

theorem finite_places (truth : Value → Prop) (items : List Value) :
    (placesOf truth items).Finite := by
  refine (Set.finite_lt_nat items.length).subset ?_
  rintro place ⟨item, hitem, -⟩
  exact (List.getElem?_eq_some_iff.mp hitem).1

theorem places_cons_of_pos (h : truth item) :
    placesOf truth (item :: items) = insert 0 (Nat.succ '' placesOf truth items) := by
  ext place
  cases place with
  | zero => simp [placesOf, h]
  | succ place => simp [placesOf]

theorem places_cons_of_neg (h : ¬truth item) :
    placesOf truth (item :: items) = Nat.succ '' placesOf truth items := by
  ext place
  cases place with
  | zero => simp [placesOf, h]
  | succ place => simp [placesOf]

variable [DecidablePred truth]

theorem ncard_places : (placesOf truth items).ncard = items.countP (truth ·) := by
  induction items with
  | nil => simp [placesOf]
  | cons item items ih =>
      have hsucc : (Nat.succ '' placesOf truth items).ncard = items.countP (truth ·) :=
        (Set.ncard_image_of_injective _ Nat.succ_injective).trans ih
      by_cases h : truth item
      · have hzero : 0 ∉ Nat.succ '' placesOf truth items := by simp
        rw [places_cons_of_pos h,
          Set.ncard_insert_of_notMem hzero ((finite_places truth items).image _), hsucc,
          List.countP_cons_of_pos (by simpa using h)]
      · rw [places_cons_of_neg h, hsucc, List.countP_cons_of_neg (by simpa using h)]

theorem is_least_of_find (h : items.findIdx? (truth ·) = some place) :
    IsLeast (placesOf truth items) place := by
  obtain ⟨hlt, htruth, hbefore⟩ := List.findIdx?_eq_some_iff_getElem.mp h
  refine ⟨⟨items[place], List.getElem?_eq_getElem hlt, by simpa using htruth⟩, ?_⟩
  rintro other ⟨item, hitem, hother⟩
  by_contra hearlier
  obtain ⟨hother', rfl⟩ := List.getElem?_eq_some_iff.mp hitem
  exact hbefore other (Nat.lt_of_not_le hearlier) (decide_eq_true hother)

/-- Taking out an item at one of the places leaves one place less. -/
theorem ncard_erase (h : place ∈ placesOf truth items) :
    (placesOf truth (items.eraseIdx place)).ncard + 1 = (placesOf truth items).ncard := by
  obtain ⟨item, hitem, htruth⟩ := h
  obtain ⟨hlt, rfl⟩ := List.getElem?_eq_some_iff.mp hitem
  rw [ncard_places, ncard_places, ← (List.getElem_cons_eraseIdx_perm hlt).countP_eq,
    List.countP_cons_of_pos (by simpa using htruth)]

end Rows

namespace Heap

/-! ## Scans -/

/-- The answer to whether an item is the same as a value or equal to it is true, or the machine
gives up because both are nested too deeply. -/
def Tells (heap : Heap) (value : Value) (truth : Value → Prop) (item : Value) : Prop :=
  (∃ same, heap.sameOrEqual item value = .ok same ∧ (same = true ↔ truth item)) ∨
    heap.sameOrEqual item value = .error .recursion ∧
      ¬heap.NestsWithin heap.nestingLimit value ∧ ¬heap.NestsWithin heap.nestingLimit item

/-- A comparison is right if what is identical is equal. -/
theorem tells_of_identical {heap : Heap} {item value : Value}
    (h : item.isIdentical value = true → heap.Equals item value) :
    heap.Tells value (heap.Equals · value) item := by
  unfold Tells sameOrEqual
  split
  · rename_i hidentical
    exact .inl ⟨true, rfl, iff_of_true rfl (h hidentical)⟩
  · cases hequal : heap.equal item value with
    | ok same => exact .inl ⟨same, rfl, (equals_iff_of_equal hequal).symm⟩
    | error fault =>
        obtain ⟨rfl, hitem, hvalue⟩ := equal_error hequal
        exact .inr ⟨rfl, hvalue, hitem⟩

theorem Tells.equals_of_identical {heap : Heap} {item value : Value}
    (h : heap.Tells value (heap.Equals · value) item) (hidentical : item.isIdentical value = true) :
    heap.Equals item value := by
  have hsame : heap.sameOrEqual item value = .ok true := if_pos hidentical
  obtain ⟨same, hok, htruth⟩ | ⟨hfails, -⟩ := h
  · cases hsame.symm.trans hok
    exact htruth.mp rfl
  · cases hsame.symm.trans hfails

/-- A comparison stays right in a heap where the answer is the same. -/
theorem Tells.of_equals_iff {heap after : Heap} {item value : Value}
    (h : heap.Tells value (heap.Equals · value) item)
    (hequals : after.Equals item value ↔ heap.Equals item value) :
    after.Tells value (after.Equals · value) item :=
  tells_of_identical fun hidentical => hequals.mpr (h.equals_of_identical hidentical)

/-- The action that compares the items with the value ends as it should, or the machine gives up
because the value and one of the items are nested too deeply. -/
def Concludes {α : Type} (heap : Heap) (items : List Value) (value : Value) (action : Action α)
    (outcome : Except Failure (α × Heap)) : Prop :=
  action heap = outcome ∨
    action heap = .error (.fault .recursion) ∧ ¬heap.NestsWithin heap.nestingLimit value ∧
      ∃ item ∈ items, ¬heap.NestsWithin heap.nestingLimit item

section Scans

variable {α β : Type} {heap : Heap} {items : List Value} {item value : Value}
  {truth : Value → Prop} {action : Action α} {outcome : Except Failure (α × Heap)}

theorem same_or_equal_run (heap : Heap) (item value : Value) :
    Action.sameOrEqual item value heap =
      match heap.sameOrEqual item value with
      | .ok same => .ok (same, heap)
      | .error fault => .error (.fault fault) := by
  show (ofFault (heap.sameOrEqual item value)) heap = _
  cases heap.sameOrEqual item value <;> rfl

theorem Concludes.of_eq {other : Action α} (hrun : action heap = other heap)
    (h : heap.Concludes items value other outcome) : heap.Concludes items value action outcome := by
  unfold Concludes
  rw [hrun]
  exact h

theorem Concludes.cons (h : heap.Concludes items value action outcome) :
    heap.Concludes (item :: items) value action outcome :=
  h.imp_right fun ⟨hfails, hvalue, other, hother, hdeep⟩ =>
    ⟨hfails, hvalue, other, List.mem_cons_of_mem _ hother, hdeep⟩

/-- One item is compared, and then the scan goes on or ends. -/
theorem Concludes.next {yes no : Action α} (htells : heap.Tells value truth item)
    (hyes : truth item → heap.Concludes items value yes outcome)
    (hno : ¬truth item → heap.Concludes items value no outcome) :
    heap.Concludes (item :: items) value
      (do if ← Action.sameOrEqual item value then yes else no) outcome := by
  have hrun := same_or_equal_run heap item value
  obtain ⟨same, hsame, htruth⟩ | ⟨hfails, hvalue, hdeep⟩ := htells
  · rw [hsame] at hrun
    cases same with
    | true => exact .of_eq (bind_run hrun) (hyes (htruth.mp rfl)).cons
    | false => exact .of_eq (bind_run hrun) (hno (mt htruth.mpr Bool.false_ne_true)).cons
  · rw [hfails] at hrun
    exact .inr ⟨bind_error hrun, hvalue, item, List.mem_cons_self, hdeep⟩

theorem Concludes.bind {result : α} {next : α → Action β}
    {last : Except Failure (β × Heap)} (h : heap.Concludes items value action (.ok (result, heap)))
    (hnext : next result heap = last) : heap.Concludes items value (action >>= next) last := by
  obtain hrun | ⟨hfails, hdeep⟩ := h
  · exact .inl ((bind_run hrun).trans hnext)
  · exact .inr ⟨bind_error hfails, hdeep⟩

variable [DecidablePred truth] (htells : ∀ item ∈ items, heap.Tells value truth item)
include htells

theorem concludes_any_equal :
    heap.Concludes items value (Operand.anyEqual value items)
      (.ok (items.any (truth ·), heap)) := by
  induction items with
  | nil => exact .inl rfl
  | cons item items ih =>
      obtain ⟨hitem, hrest⟩ := List.forall_mem_cons.mp htells
      refine .next hitem (fun htruth => .inl ?_) fun hfalse => ?_
      · simp [htruth]
        rfl
      · simpa [hfalse] using ih hrest

theorem concludes_count_of :
    heap.Concludes items value (countOf value items)
      (.ok (items.countP (truth ·), heap)) := by
  induction items with
  | nil => exact .inl rfl
  | cons item items ih =>
      obtain ⟨hitem, hrest⟩ := List.forall_mem_cons.mp htells
      refine .next hitem (fun htruth => ?_) fun hfalse => ?_
      · rw [List.countP_cons_of_pos (by simpa using htruth)]
        exact (ih hrest).bind rfl
      · rw [List.countP_cons_of_neg (by simpa using hfalse)]
        exact ih hrest

theorem concludes_place_of (place : Nat) :
    heap.Concludes items value (placeOf value place items)
      (.ok ((items.findIdx? (truth ·)).map (place + ·), heap)) := by
  induction items generalizing place with
  | nil => exact .inl rfl
  | cons item items ih =>
      obtain ⟨hitem, hrest⟩ := List.forall_mem_cons.mp htells
      rw [List.findIdx?_cons]
      refine .next hitem (fun htruth => .inl ?_) fun hfalse => ?_
      · rw [if_pos (by simpa using htruth)]
        rfl
      · rw [if_neg (by simpa using hfalse), Option.map_map]
        have hplaces : (place + 1 + ·) = (place + ·) ∘ (fun later => later + 1) :=
          funext fun later => by simp only [Function.comp_apply]; omega
        rw [← hplaces]
        exact ih hrest (place + 1)

end Scans

/-! ## Lists and tuples -/

/-- The value is a list or tuple with the items. -/
inductive HasItems (heap : Heap) : Value → List Value → Prop where
  | list (id : ListId) : HasItems heap (.list id) (heap.list id).toList
  | tuple (mark : Nat) (items : List Value) : HasItems heap (.tuple mark items) items

/-- The places at which a list or tuple has an item that is equal to the value. -/
def Places (heap : Heap) (sequence value : Value) : Set Nat :=
  {place | ∃ item, getItem sequence (.int place) heap = .ok (item, heap) ∧ heap.Equals item value}

/-- What is found out about a value by going through the items of a list or tuple. -/
structure SearchLaws (heap : Heap) (sequence value : Value) (items : List Value) : Prop where
  /-- The value is in it if it is at some place. -/
  within : ∃ found : Bool,
    heap.Concludes items value (BinaryOperator.within.apply value sequence)
      (.ok (.bool found, heap)) ∧ (found = true ↔ (heap.Places sequence value).Nonempty)
  /-- The count is the number of places. -/
  count : heap.Concludes items value (callMethod sequence "count" [value])
    (.ok (.int (heap.Places sequence value).ncard, heap))
  count_pos : 0 < (heap.Places sequence value).ncard ↔ (heap.Places sequence value).Nonempty
  /-- The index is the first place, if there is one. -/
  found (h : (heap.Places sequence value).Nonempty) :
    ∃ place, IsLeast (heap.Places sequence value) place ∧
      heap.Concludes items value (callMethod sequence "index" [value]) (.ok (.int place, heap))
  missing (h : heap.Places sequence value = ∅) :
    heap.Concludes items value (callMethod sequence "index" [value])
      (.error (.raised .valueError
        s!"{heap.typeName sequence}.index(x): x not in {heap.typeName sequence}"))

/-- What happens when a value is removed from a list: the item at the first place is taken out, and
nothing else changes; then the value is counted once less. -/
structure RemoveLaws (heap : Heap) (id : ListId) (value : Value) : Prop where
  present (h : (heap.Places (.list id) value).Nonempty) :
    ∃ place after, IsLeast (heap.Places (.list id) value) place ∧
      heap.Concludes (heap.list id).toList value (callMethod (.list id) "remove" [value])
        (.ok (.null, after)) ∧
      after = heap.withList id (after.list id) ∧
      (after.list id).toList = (heap.list id).toList.eraseIdx place ∧
      after.Concludes (after.list id).toList value (callMethod (.list id) "count" [value])
        (.ok (.int (after.Places (.list id) value).ncard, after)) ∧
      (after.Places (.list id) value).ncard + 1 = (heap.Places (.list id) value).ncard
  absent (h : heap.Places (.list id) value = ∅) :
    heap.Concludes (heap.list id).toList value (callMethod (.list id) "remove" [value])
      (.error (.raised .valueError "list.remove(x): x not in list"))

section Laws

variable {heap : Heap} {id : ListId} {items : List Value} {sequence value : Value} {place : Nat}

theorem require_place_run (heap : Heap) (collection : Value) (length place : Nat)
    (complaint : String) :
    requirePlace collection (.int place) (pure length) complaint heap =
      if place < length then .ok (place, heap)
      else .error (.raised .indexError s!"{heap.typeName collection} {complaint}") := by
  unfold requirePlace
  dsimp only
  rw [if_neg (Int.not_lt.mpr (Int.natCast_nonneg place))]
  show ((if length ≤ place then _ else _ : Action Nat) heap) = _
  split
  · rename_i hlong
    rw [if_neg (Nat.not_lt.mpr hlong)]
    rfl
  · rename_i hshort
    rw [if_pos (Nat.lt_of_not_le hshort)]
    rfl

theorem get_item_eq_ok_iff {item : Value} (h : heap.HasItems sequence items) :
    getItem sequence (.int place) heap = .ok (item, heap) ↔ items[place]? = some item := by
  have hrun : getItem sequence (.int place) heap =
      (requirePlace sequence (.int place) (pure items.length) "index out of range" >>= fun place =>
        pure (items.getD place .null)) heap := by
    cases h with
    | list id =>
        simp only [← Array.getD_eq_getD_getElem?, Array.length_toList, List.getD_eq_getElem?_getD,
          Array.getElem?_toList]
        rfl
    | tuple mark items => rfl
  have hplace := require_place_run heap sequence items.length place "index out of range"
  rw [hrun]
  split at hplace
  · rename_i hlt
    rw [bind_run hplace, List.getElem?_eq_getElem hlt, List.getD_eq_getElem items .null hlt,
      Option.some.injEq]
    exact ⟨fun hok => congrArg Prod.fst (Except.ok.inj hok), fun heq => heq ▸ rfl⟩
  · rename_i hout
    rw [bind_error hplace, List.getElem?_eq_none (Nat.le_of_not_lt hout)]
    constructor
    · intro hok
      cases hok
    · intro hsome
      cases hsome

theorem places_eq (h : heap.HasItems sequence items) :
    heap.Places sequence value = placesOf (heap.Equals · value) items :=
  Set.ext fun _ => exists_congr fun _ => and_congr_left fun _ => get_item_eq_ok_iff h

theorem Concludes.apply {operator : BinaryOperator} {a b result : Value}
    (h : heap.Concludes items value (operator.operation a b) (.ok (result, heap))) :
    heap.Concludes items value (operator.apply a b) (.ok (result, heap)) := by
  unfold Concludes BinaryOperator.apply
  obtain hrun | ⟨hfails, hdeep⟩ := h
  · rw [hrun]
    exact .inl rfl
  · rw [hfails]
    exact .inr ⟨rfl, hdeep⟩

theorem index_run (h : heap.HasItems sequence items) :
    callMethod sequence "index" [value] heap =
      indexOf (heap.typeName sequence) items value heap := by
  cases h with
  | list id =>
      rw [call_unary_run rfl]
      rfl
  | tuple mark items => exact call_unary_run rfl

theorem count_run (h : heap.HasItems sequence items) :
    callMethod sequence "count" [value] heap =
      (countOf value items >>= fun count => pure (.int count)) heap := by
  cases h with
  | list id =>
      rw [call_unary_run rfl]
      rfl
  | tuple mark items => rw [call_unary_run rfl]

section Count

variable {truth : Value → Prop} (htells : ∀ item ∈ items, heap.Tells value truth item)
include htells

theorem concludes_count (h : heap.HasItems sequence items) :
    heap.Concludes items value (callMethod sequence "count" [value])
      (.ok (.int (placesOf truth items).ncard, heap)) := by
  classical
  refine .of_eq (count_run h) ?_
  rw [ncard_places]
  exact (concludes_count_of htells).bind rfl

/-- The first place is found, or it is found that there is none. -/
theorem concludes_first :
    (∃ place, IsLeast (placesOf truth items) place ∧
      heap.Concludes items value (placeOf value 0 items) (.ok (some place, heap))) ∨
    placesOf truth items = ∅ ∧
      heap.Concludes items value (placeOf value 0 items) (.ok (none, heap)) := by
  classical
  have hplace := concludes_place_of htells 0
  cases hfound : items.findIdx? (truth ·) with
  | some place =>
      rw [hfound, Option.map_some, Nat.zero_add] at hplace
      exact .inl ⟨place, is_least_of_find hfound, hplace⟩
  | none =>
      rw [hfound] at hplace
      refine .inr ⟨?_, hplace⟩
      rw [← Set.not_nonempty_iff_eq_empty, nonempty_places_iff]
      rintro ⟨item, hitem, htruth⟩
      have hfalse := List.findIdx?_eq_none_iff.mp hfound item hitem
      exact of_decide_eq_false hfalse htruth

end Count

theorem search_laws (h : heap.HasItems sequence items)
    (htells : ∀ item ∈ items, heap.Tells value (heap.Equals · value) item) :
    heap.SearchLaws sequence value items := by
  classical
  have hplaces : heap.Places sequence value = placesOf (heap.Equals · value) items := places_eq h
  refine ⟨?_, ?_, ?_, fun hfound => ?_, fun hmissing => ?_⟩
  · have hrun : BinaryOperator.within.operation value sequence heap =
        (Operand.anyEqual value items >>= fun found => pure (.bool found)) heap := by
      cases h <;> rfl
    let found := items.any fun item => heap.Equals item value
    have hscan : heap.Concludes items value
        (Operand.anyEqual value items >>= fun found => pure (Value.bool found))
        (.ok (.bool found, heap)) := (concludes_any_equal htells).bind rfl
    refine ⟨found, .apply (.of_eq hrun hscan), ?_⟩
    rw [hplaces, nonempty_places_iff]
    show items.any _ = true ↔ _
    simp
  · rw [hplaces]
    exact concludes_count htells h
  · rw [hplaces]
    exact Set.ncard_pos (finite_places _ _)
  · rw [hplaces] at hfound ⊢
    obtain ⟨place, hleast, hrun⟩ | ⟨hempty, -⟩ := concludes_first htells
    · exact ⟨place, hleast, .of_eq (index_run h) (hrun.bind rfl)⟩
    · exact absurd hempty hfound.ne_empty
  · rw [hplaces] at hmissing
    obtain ⟨place, hleast, -⟩ | ⟨-, hrun⟩ := concludes_first htells
    · exact absurd hmissing (Set.nonempty_of_mem hleast.1).ne_empty
    · exact .of_eq (index_run h) (hrun.bind rfl)

/-- Takes the item at a place out of a list, if a place has been found. -/
def takeOut (id : ListId) : Option Nat → Action Value
  | some place => do
    setList id fun items => items.eraseIdxIfInBounds place
    return .null
  | none => raise .valueError "list.remove(x): x not in list"

theorem remove_run : callMethod (.list id) "remove" [value] heap =
    (placeOf value 0 (heap.list id).toList >>= takeOut id) heap := by
  rw [call_unary_run rfl]
  unfold listRemove
  rw [get_bind_run]
  refine congrArg (fun next : Option Nat → Action Value => (_ >>= next) heap) ?_
  funext found
  cases found <;> rfl

theorem take_out_run (heap : Heap) (id : ListId) (place : Nat) :
    takeOut id (some place) heap =
      .ok (.null, heap.withList id ((heap.list id).eraseIdxIfInBounds place)) :=
  bind_run (set_list_run heap id _)

variable (htells : ∀ item ∈ (heap.list id).toList, heap.Tells value (heap.Equals · value) item)
include htells

/-- When an item that is equal to the value has been taken out of a list, the value is counted once
less, if what is left compares with the value as before. -/
theorem count_taken_out {after : Heap}
    (hplace : place ∈ placesOf (heap.Equals · value) (heap.list id).toList)
    (hitems : (after.list id).toList = (heap.list id).toList.eraseIdx place)
    (hstays : ∀ item ∈ (after.list id).toList,
      after.Equals item value ↔ heap.Equals item value) :
    after.Concludes (after.list id).toList value (callMethod (.list id) "count" [value])
      (.ok (.int (after.Places (.list id) value).ncard, after)) ∧
    (after.Places (.list id) value).ncard + 1 = (heap.Places (.list id) value).ncard := by
  classical
  have hold {item : Value} (hitem : item ∈ (after.list id).toList) :
      item ∈ (heap.list id).toList :=
    List.mem_of_mem_eraseIdx (hitems ▸ hitem)
  have htells' : ∀ item ∈ (after.list id).toList,
      after.Tells value (after.Equals · value) item := fun item hitem =>
    (htells item (hold hitem)).of_equals_iff (hstays item hitem)
  rw [places_eq (.list id), places_eq (.list id)]
  refine ⟨concludes_count htells' (.list id), ?_⟩
  rw [places_congr hstays, hitems]
  exact ncard_erase hplace

/-- The laws of removal hold if the comparisons with the value are right and what is left of the
list, when an item that is equal to the value has been taken out, compares with it as before. -/
theorem remove_laws
    (hstays : (heap.Places (.list id) value).Nonempty → ∀ changed : Array Value,
      (∀ item ∈ changed.toList, item ∈ (heap.list id).toList) →
        ∀ item ∈ changed.toList,
          (heap.withList id changed).Equals item value ↔ heap.Equals item value) :
    heap.RemoveLaws id value := by
  have hplaces : heap.Places (.list id) value =
      placesOf (heap.Equals · value) (heap.list id).toList := places_eq (.list id)
  obtain ⟨place, hleast, hfirst⟩ | ⟨hempty, hfirst⟩ := concludes_first htells
  · rw [← hplaces] at hleast
    refine ⟨fun hfound => ?_, fun hmissing => ?_⟩
    · have hplace : place ∈ placesOf (heap.Equals · value) (heap.list id).toList :=
        hplaces ▸ hleast.1
      obtain ⟨item, hitem, -⟩ := nonempty_places_iff.mp ⟨place, hplace⟩
      let changed := (heap.list id).eraseIdxIfInBounds place
      let after := heap.withList id changed
      have hafter : after.list id = changed := list_with_list hitem
      have hchanged : changed.toList = (heap.list id).toList.eraseIdx place :=
        Array.toList_eraseIdxIfInBounds
      have hitems : (after.list id).toList = (heap.list id).toList.eraseIdx place := by
        rw [hafter, hchanged]
      refine ⟨place, after, hleast, .of_eq remove_run (hfirst.bind (take_out_run heap id place)),
        by rw [hafter], hitems, ?_⟩
      refine count_taken_out htells hplace hitems fun item hitem => ?_
      exact hstays hfound changed (fun other hother => List.mem_of_mem_eraseIdx (hchanged ▸ hother))
        item (hafter ▸ hitem)
    · exact absurd hmissing (Set.nonempty_of_mem hleast.1).ne_empty
  · refine ⟨fun hfound => ?_, fun _ => .of_eq remove_run (hfirst.bind rfl)⟩
    exact absurd (hplaces.trans hempty) hfound.ne_empty

end Laws

end Heap

namespace EvalState

variable {state : EvalState}

/-- Comparisons with a comparable value are right. -/
theorem Comparable.tells (hstate : state.Arises) (value : state.Comparable) (item : Value) :
    state.world.heap.Tells value.value (state.world.heap.Equals · value.value) item := by
  refine Heap.tells_of_identical fun hidentical => ?_
  have hfloating := (Value.isFloating_of_identical hidentical).trans (value.floatFree _ .refl)
  rw [Value.eq_of_identical hfloating hidentical]
  exact .refl hstate.sound.heap (value.fine hstate) value.acyclic

/-- A comparable value that is equal to an item of a list does not reach the list. -/
theorem Comparable.not_reaches (hstate : state.Arises) (value : state.Comparable) {id : ListId}
    {item : Value} (hitem : item ∈ (state.world.heap.list id).toList)
    (hequals : state.world.heap.Equals item value.value) :
    ¬ReflTransGen state.world.heap.HasPart value.value (.list id) := by
  intro hpath
  have hheap := hstate.sound.heap
  have hfine := value.fine hstate
  have hacyclic : state.world.heap.Acyclic (.list id) := fun part hpart =>
    value.acyclic part (hpath.trans hpart)
  have hitemFine : state.world.heap.Fine item :=
    ⟨hheap.list id item (Array.mem_toList_iff.mp hitem), fun part hpart =>
      value.floatFree part (hpath.trans (.head hitem hpart))⟩
  exact hacyclic.not_reached hheap hitem hitemFine hfine.sound hequals hpath

/-- All ways to look for a value in a list or tuple agree on the places at which it has an item that
is equal to the value, which may be of another type: `in` says whether there is a place, `count` how
many there are, `index` and `remove` go to the first. They give up only if the value and one of the
items are nested too deeply for the machine. No double may be part of the value, and it must be
acyclic; the list or tuple may be any. -/
theorem search_agrees_with_membership (hstate : state.Arises) (value : state.Comparable)
    {sequence : Value} {items : List Value} (h : state.world.heap.HasItems sequence items) :
    state.world.heap.SearchLaws sequence value.value items ∧
      ∀ id, sequence = .list id → state.world.heap.RemoveLaws id value.value := by
  have htells := value.tells hstate
  refine ⟨Heap.search_laws h fun item _ => htells item, fun id _ => ?_⟩
  refine Heap.remove_laws (fun item _ => htells item) fun hfound changed hold item hitem => ?_
  rw [Heap.places_eq (.list id), nonempty_places_iff] at hfound
  obtain ⟨other, hother, hequals⟩ := hfound
  exact Heap.equals_with_list_iff hstate.sound.heap (value.fine hstate) value.acyclic
    (value.not_reaches hstate hother hequals) hold hitem

/-- The list `[true, "a", xs, 1.0]`, which is its own item `xs`, has the number `1` at two places.
Removing it takes out `true`. -/
theorem search_agrees_with_membership_of_ones :
    let statements : List Expr := [
      .letBind "xs" (.list [.bool true, .string "a", .null, .float 1]),
      .assignIndex (.name "xs") (.int 2) (.name "xs"), .letBind "v" (.int 1)]
    let state := EvalState.afterStatements statements
    let items : List Value := [.bool true, .str "a", .list 0, .float ⟨1, 0⟩]
    state.Arises ∧ state.world.heap.HasItems (.list 0) items ∧
      ∃ value : state.Comparable, value.value = .int 1 ∧
        0 ∈ state.world.heap.Places (.list 0) (.int 1) ∧
        3 ∈ state.world.heap.Places (.list 0) (.int 1) ∧
        state.world.heap.SearchLaws (.list 0) (.int 1) items ∧
        ∃ after, callMethod (.list 0) "remove" [.int 1] state.world.heap = .ok (.null, after) ∧
          (after.list 0).toList = [.str "a", .list 0, .float ⟨1, 0⟩] := by
  intro statements state items
  have hends : (Eval.body (Eval.evaluate 5) statements
      (Interpreter.fresh 1000 (Console.ofInput "")).started).1 = .ok .null := rfl
  have harises : state.Arises := .occurs (EvalState.occurs_after_statements (Prod.ext hends rfl))
  have hv : state.scope.get? "v" = some (.int 1) := rfl
  have hplain : state.world.heap.plainWithin 1 (.int 1) = true := rfl
  let value : state.Comparable := .ofPlain (.held (.bound hv)) hplain
  have hrow : (state.world.heap.list 0).toList = items := rfl
  have hitems : state.world.heap.HasItems (.list 0) items := hrow ▸ Heap.HasItems.list 0
  have hfirst : 0 ∈ state.world.heap.Places (.list 0) (.int 1) := ⟨.bool true, rfl, 1, rfl⟩
  have hdouble : state.world.heap.equalWithin 1 (.float ⟨1, 0⟩) (.int 1) = .ok true := by
    decide +kernel
  have hlast : 3 ∈ state.world.heap.Places (.list 0) (.int 1) :=
    Heap.places_eq hitems ▸ ⟨.float ⟨1, 0⟩, rfl, 1, hdouble⟩
  obtain ⟨hsearch, hremove⟩ := search_agrees_with_membership harises value hitems
  obtain ⟨place, after, hleast, hrun, -, hafter, -⟩ := (hremove 0 rfl).present ⟨0, hfirst⟩
  obtain rfl : place = 0 := Nat.le_zero.mp (hleast.2 hfirst)
  have hshallow : state.world.heap.NestsWithin state.world.heap.nestingLimit (.int 1) :=
    (Heap.NestsWithin.of_plain hplain).mono (by decide)
  obtain hrun | ⟨-, hdeep, -⟩ := hrun
  · exact ⟨harises, hitems, value, rfl, hfirst, hlast, hsearch, after, hrun, hafter⟩
  · exact absurd hshallow hdeep

end EvalState

end Script
