import Script.Proofs.Builtin.Run

/-!
# Sorting a list

Items are put in the order of their texts, by a sort that keeps the order of items with the same
text. The texts are taken while the list is empty. An item with a text does not reach the list that
it is in, so that this is the text it has before the list is emptied and after it is sorted, and
the laws of the sort become laws of the method: `Heap.Sorts`.
-/

namespace Script

/-! ## Values in the order of their texts -/

section ByText

variable {text : Value → String} {items others : List Value}

/-- A value comes before another if its text does not come after the other's. Texts are in the
order of their code points. -/
def byText (text : Value → String) (a b : Value) : Bool :=
  decide (text a ≤ text b)

theorem by_text_trans (a b c : Value) (hab : byText text a b = true)
    (hbc : byText text b c = true) : byText text a c = true :=
  decide_eq_true (String.le_trans (of_decide_eq_true hab) (of_decide_eq_true hbc))

theorem by_text_total (a b : Value) : (byText text a b || byText text b a) = true := by
  rw [Bool.or_eq_true]
  exact (String.le_total (text a) (text b)).imp decide_eq_true decide_eq_true

theorem sort_by_text_keyed (text : Value → String) (items : List Value) :
    Builtin.sortByText (items.map fun item => (text item, item)) =
      items.mergeSort (byText text) := by
  have hkeyed : (items.mergeSort (byText text)).map (fun item => (text item, item)) =
      (items.map fun item => (text item, item)).mergeSort fun a b => decide (a.1 ≤ b.1) :=
    List.map_mergeSort fun _ _ _ _ => rfl
  rw [Builtin.sortByText, ← hkeyed, List.map_map]
  exact List.map_id _

theorem texts_ordered (text : Value → String) (items : List Value) :
    ((items.mergeSort (byText text)).map text).Pairwise (· ≤ ·) :=
  List.pairwise_map.mpr
    ((List.pairwise_mergeSort by_text_trans by_text_total items).imp of_decide_eq_true)

/-- The items with a certain text are in the order in which they were. -/
theorem filter_text_sorted (text : Value → String) (items : List Value) (shown : String) :
    (items.mergeSort (byText text)).filter (text · = shown) = items.filter (text · = shown) := by
  have htext {item : Value} (hmem : item ∈ items.filter (text · = shown)) : text item = shown :=
    of_decide_eq_true (List.mem_filter.mp hmem).2
  have htied : (items.filter (text · = shown)).Pairwise (byText text · · = true) :=
    List.pairwise_of_forall_mem_list fun a ha b hb =>
      decide_eq_true (htext ha ▸ htext hb ▸ String.le_refl _)
  have hkept : (items.filter (text · = shown)).Sublist (items.mergeSort (byText text)) :=
    List.sublist_mergeSort by_text_trans by_text_total htied List.filter_sublist
  have hfiltered := hkept.filter (text · = shown)
  rw [List.filter_filter, funext fun item => Bool.and_self _] at hfiltered
  have hcount := ((List.mergeSort_perm items (byText text)).filter (text · = shown)).length_eq
  exact (hfiltered.eq_of_length hcount.symm).symm

/-- A row in order stays as it is, also if the order is by other texts that are the same for all
its values. -/
theorem sort_sorted {other : Value → String} (h : ∀ item ∈ items, other item = text item) :
    (items.mergeSort (byText text)).mergeSort (byText other) = items.mergeSort (byText text) := by
  have hsorted : (items.mergeSort (byText text)).Pairwise (byText text · · = true) :=
    List.pairwise_mergeSort by_text_trans by_text_total items
  refine List.mergeSort_of_pairwise (hsorted.imp_of_mem fun {a b} ha hb hle => ?_)
  rw [byText, h a (List.mem_mergeSort.mp ha), h b (List.mem_mergeSort.mp hb)]
  exact hle

/-- Rows that are the same but for their order have the same texts once they are in order. -/
theorem sorted_texts_eq {other : Value → String} (hperm : others.Perm items)
    (h : ∀ item ∈ items, other item = text item) :
    (others.mergeSort (byText other)).map other = (items.mergeSort (byText text)).map text := by
  have htexts : others.map other = others.map text :=
    List.map_congr_left fun item hmem => h item (hperm.mem_iff.mp hmem)
  have hsorted : ((others.mergeSort (byText other)).map other).Perm
      ((items.mergeSort (byText text)).map text) :=
    calc
      ((others.mergeSort (byText other)).map other).Perm (others.map other) :=
        (List.mergeSort_perm others (byText other)).map other
      _ = others.map text := htexts
      (others.map text).Perm (items.map text) := hperm.map text
      (items.map text).Perm ((items.mergeSort (byText text)).map text) :=
        ((List.mergeSort_perm items (byText text)).map text).symm
  exact hsorted.eq_of_pairwise (fun a b _ _ => String.le_antisymm)
    (texts_ordered other others) (texts_ordered text items)

end ByText

/-! ## Sorting in a heap -/

namespace Heap

open Relation Script.Action Builtin

variable {heap : Heap} {id : ListId} {item : Value}

/-- The text of a value; without one, it counts as the empty text. -/
def textOf (heap : Heap) (value : Value) : String :=
  (heap.display value).toOption.getD ""

/-- All the items of the list have a text. -/
def ItemsHaveTexts (heap : Heap) (id : ListId) : Prop :=
  ∀ item ∈ (heap.list id).toList, ∃ text, heap.display item = .ok text

/-- The texts of the items of the list. -/
def texts (heap : Heap) (id : ListId) : List String :=
  (heap.list id).toList.map heap.textOf

/-- The items of the list in the order of their texts. -/
def sortedItems (heap : Heap) (id : ListId) : List Value :=
  (heap.list id).toList.mergeSort (byText heap.textOf)

/-- The heap with the items of the list in the order of their texts. -/
def sorted (heap : Heap) (id : ListId) : Heap :=
  heap.withList id (heap.sortedItems id).toArray

theorem with_list_with_list (heap : Heap) (id : ListId) (first second : Array Value) :
    (heap.withList id first).withList id second = heap.withList id second := by
  unfold withList
  rw [Store.modify_modify]

theorem list_sorted (heap : Heap) (id : ListId) :
    (heap.sorted id).list id = (heap.sortedItems id).toArray := by
  have hlist : (heap.sorted id).list id =
    (heap.lists.modify id fun _ => (heap.sortedItems id).toArray).get id := rfl
  rcases Nat.lt_or_ge id heap.lists.next with hid | hid
  · rw [hlist, Store.get_modify _ _ _ _ hid, if_pos rfl]
  · have hnone : heap.lists.get id = #[] := Store.get_of_le hid
    have hempty : heap.sortedItems id = [] := by
      rw [sortedItems, list, hnone]
      exact List.mergeSort_nil
    rw [hlist, Store.get_modify_of_le _ _ _ _ hid, hnone, hempty]

/-- A value that has a text does not reach a list that it is in. -/
theorem ItemsHaveTexts.not_reached (h : heap.ItemsHaveTexts id)
    (hitem : item ∈ (heap.list id).toList) : ¬ReflTransGen heap.Shows item (.list id) := by
  intro hpath
  obtain ⟨text, htext⟩ := h item hitem
  exact not_cyclic_of_text htext (.tail' hpath (.item (Array.mem_toList_iff.mp hitem)))

/-- An item with a text keeps it, whatever becomes of the list that it is in. -/
theorem ItemsHaveTexts.display_with_list (h : heap.ItemsHaveTexts id)
    (hitem : item ∈ (heap.list id).toList) (items : Array Value) :
    (heap.withList id items).display item = heap.display item :=
  display_within_with_list (h.not_reached hitem)

theorem ItemsHaveTexts.text_of_with_list (h : heap.ItemsHaveTexts id)
    (hitem : item ∈ (heap.list id).toList) (items : Array Value) :
    (heap.withList id items).textOf item = heap.textOf item := by
  rw [textOf, h.display_with_list hitem, textOf]

/-- Items with texts are looked at one after the other, which changes nothing. -/
theorem keyed_run {items : List Value} {text : Value → String}
    (h : ∀ item ∈ items, heap.display item = .ok (text item)) :
    ((items.mapM fun item => do return (← Action.display item, item)) :
      Action (List (String × Value))) heap =
      .ok (items.map fun item => (text item, item), heap) := by
  induction items with
  | nil => rfl
  | cons item items ih =>
      obtain ⟨hitem, hrest⟩ := List.forall_mem_cons.mp h
      have hshown : Action.display item heap = .ok (text item, heap) := by
        rw [display_run, hitem]
      rw [List.mapM_cons, bind_assoc, bind_run hshown, pure_bind, bind_run (ih hrest)]
      rfl

theorem list_sort_run (h : heap.ItemsHaveTexts id) :
    callMethod (.list id) "sort" [] heap = .ok (.null, heap.sorted id) := by
  have htexts : ∀ item ∈ (heap.list id).toList,
      (heap.withList id #[]).display item = .ok (heap.textOf item) := by
    intro item hitem
    obtain ⟨text, htext⟩ := h item hitem
    rw [h.display_with_list hitem, textOf, htext]
    rfl
  rw [call_nullary_run rfl]
  unfold listSort
  rw [get_bind_run, bind_run (set_list_run heap id _), bind_run (keyed_run htexts),
    bind_run (set_list_run _ id _), sort_by_text_keyed, with_list_with_list]
  rfl

theorem ItemsHaveTexts.sorted (h : heap.ItemsHaveTexts id) :
    (heap.sorted id).ItemsHaveTexts id := by
  intro item hitem
  have hmem : item ∈ (heap.list id).toList := by
    rw [list_sorted] at hitem
    exact List.mem_mergeSort.mp hitem
  obtain ⟨text, htext⟩ := h item hmem
  exact ⟨text, (h.display_with_list hmem _).trans htext⟩

theorem ItemsHaveTexts.sorted_sorted (h : heap.ItemsHaveTexts id) :
    (heap.sorted id).sorted id = heap.sorted id := by
  have hitems : (heap.sorted id).sortedItems id = heap.sortedItems id := by
    rw [sortedItems, list_sorted]
    exact sort_sorted fun item hmem => h.text_of_with_list hmem _
  rw [Heap.sorted, hitems]
  exact heap.with_list_with_list id _ _

theorem ItemsHaveTexts.texts_sorted (h : heap.ItemsHaveTexts id) :
    (heap.sorted id).texts id = (heap.sortedItems id).map heap.textOf := by
  rw [texts, list_sorted]
  exact List.map_congr_left fun item hmem => h.text_of_with_list (List.mem_mergeSort.mp hmem) _

/-- What becomes of a heap when a list is sorted. -/
structure Sorts (heap : Heap) (id : ListId) (after : Heap) : Prop where
  run : callMethod (.list id) "sort" [] heap = .ok (.null, after)
  /-- Nothing changes but the items of the list. -/
  kept : after = heap.withList id (after.list id)
  shown (item : Value) (hitem : item ∈ (heap.list id).toList) :
    after.display item = heap.display item
  perm : (after.list id).toList.Perm (heap.list id).toList
  ordered : (after.texts id).Pairwise (· ≤ ·)
  stable (text : String) : (after.list id).toList.filter (heap.textOf · = text) =
    (heap.list id).toList.filter (heap.textOf · = text)
  again : callMethod (.list id) "sort" [] after = .ok (.null, after)

theorem ItemsHaveTexts.sorts (h : heap.ItemsHaveTexts id) : heap.Sorts id (heap.sorted id) where
  run := list_sort_run h
  kept := by
    rw [list_sorted]
    rfl
  shown item hitem := h.display_with_list hitem _
  perm := by
    rw [list_sorted]
    exact List.mergeSort_perm _ _
  ordered := by
    rw [h.texts_sorted]
    exact texts_ordered _ _
  stable text := by
    rw [list_sorted]
    exact filter_text_sorted _ _ text
  again := by
    rw [list_sort_run h.sorted, h.sorted_sorted]

/-- A list whose items all have a text is sorted by these texts, and so is any other list with the
same items, wherever it is: both have the same texts in the end. -/
theorem sort_orders_by_text (h : heap.ItemsHaveTexts id) :
    ∃ after, heap.Sorts id after ∧
      ∀ (start : Heap) (other : ListId), (start.list other).toList.Perm (heap.list id).toList →
        (∀ item ∈ (heap.list id).toList, start.display item = heap.display item) →
        ∃ finish, start.Sorts other finish ∧ finish.texts other = after.texts id := by
  refine ⟨heap.sorted id, h.sorts, fun start other hperm hshown => ?_⟩
  have hother : start.ItemsHaveTexts other := by
    intro item hitem
    have hmem := hperm.mem_iff.mp hitem
    obtain ⟨text, htext⟩ := h item hmem
    exact ⟨text, (hshown item hmem).trans htext⟩
  have htext : ∀ item ∈ (heap.list id).toList, start.textOf item = heap.textOf item := by
    intro item hitem
    rw [textOf, hshown item hitem, textOf]
  refine ⟨start.sorted other, hother.sorts, ?_⟩
  rw [hother.texts_sorted, h.texts_sorted]
  exact sorted_texts_eq hperm htext

/-- Two lists with the same items, of which two have the same text. -/
theorem sort_orders_by_text_mixed :
    let heap : Heap :=
      { Heap.empty 1000 with
        lists := ⟨#[#[.bool true, .str "None", .null], #[.null, .bool true, .str "None"]]⟩ }
    heap.ItemsHaveTexts 0 ∧ (heap.list 1).toList.Perm (heap.list 0).toList ∧
      ∃ after, heap.Sorts 0 after ∧
        ∃ finish, heap.Sorts 1 finish ∧ finish.texts 1 = after.texts 0 := by
  intro heap
  have hitems : heap.ItemsHaveTexts 0 :=
    List.forall_mem_cons.mpr ⟨⟨"true", by decide⟩, List.forall_mem_cons.mpr ⟨⟨"None", by decide⟩,
      List.forall_mem_singleton.mpr ⟨"None", by decide⟩⟩⟩
  have hperm : (heap.list 1).toList.Perm (heap.list 0).toList := by
    show ([.null] ++ [.bool true, .str "None"] : List Value).Perm
      ([.bool true, .str "None"] ++ [.null])
    exact List.perm_append_comm
  obtain ⟨after, hafter, hothers⟩ := sort_orders_by_text hitems
  exact ⟨hitems, hperm, after, hafter, hothers heap 1 hperm fun _ _ => rfl⟩

end Heap

end Script
