import Script.Proofs.Heap.Faults

/-!
# Values with texts

A value has a text only if all the parts that it shows have one, and each of them is shown with
less depth to go than the whole. So a value with a text is on no cycle of parts, and a list that
it does not reach has no influence on its text.
-/

namespace Script

open Relation

namespace Heap

variable {heap : Heap} {depth : Nat} {whole part value : Value} {text : String}

/-- The parts of a value are shown with less depth to go. -/
theorem Shows.exists_text (hpart : heap.Shows whole part)
    (h : heap.displayWithin depth whole = .ok text) :
    ∃ less < depth, ∃ text, heap.displayWithin less part = .ok text := by
  cases depth with
  | zero => cases h
  | succ depth =>
      rw [display_within_succ] at h
      exact ⟨depth, Nat.lt_succ_self depth,
        Layout.exists_text_of_render h (shows_iff_mem_parts.mp hpart)⟩

/-- Along a path of parts the depth to go falls. -/
theorem exists_text_of_path (hpath : TransGen heap.Shows whole part)
    (h : heap.displayWithin depth whole = .ok text) :
    ∃ less < depth, ∃ text, heap.displayWithin less part = .ok text := by
  induction hpath with
  | single hpart => exact hpart.exists_text h
  | tail _ hpart ih =>
      obtain ⟨middle, hmiddle, text, hshown⟩ := ih
      obtain ⟨less, hless, hpart⟩ := hpart.exists_text hshown
      exact ⟨less, Nat.lt_trans hless hmiddle, hpart⟩

/-- A value with a text does not show itself. -/
theorem not_cyclic_of_text (h : heap.displayWithin depth value = .ok text) :
    ¬TransGen heap.Shows value value := by
  intro hcycle
  induction depth using Nat.strongRecOn generalizing text with
  | ind depth ih =>
      obtain ⟨less, hless, text, hshown⟩ := exists_text_of_path hcycle h
      exact ih less hless hshown

/-! ## Lists that are not reached -/

/-- The heap with other items in a list. -/
def withList (heap : Heap) (id : ListId) (items : Array Value) : Heap :=
  { heap with lists := heap.lists.modify id fun _ => items }

variable {id : ListId} {items : Array Value}

theorem list_with_list_of_ne {other : ListId} (h : other ≠ id) :
    (heap.withList id items).list other = heap.list other := by
  show (heap.lists.modify id _).get other = heap.lists.get other
  rcases Nat.lt_or_ge id heap.lists.next with hid | hid
  · rw [Store.get_modify _ _ _ _ hid, if_neg h]
  · exact Store.get_modify_of_le _ _ _ _ hid

/-- Only the list itself is laid out anew. -/
theorem layout_with_list (h : value ≠ .list id) :
    (heap.withList id items).layout value = heap.layout value := by
  cases value with
  | list other =>
      have hne : other ≠ id := fun heq => h (congrArg Value.list heq)
      show Layout.row _ _ = Layout.row _ _
      rw [list_with_list_of_ne hne]
  | _ => rfl

/-- The items of a list have no influence on the text of a value that does not reach the list. -/
theorem display_within_with_list (h : ¬ReflTransGen heap.Shows value (.list id)) :
    (heap.withList id items).displayWithin depth value = heap.displayWithin depth value := by
  induction depth generalizing value with
  | zero => rfl
  | succ depth ih =>
      have hne : value ≠ .list id := fun heq => h (heq ▸ .refl)
      rw [display_within_succ, display_within_succ, layout_with_list hne]
      refine Layout.render_congr fun part hmem => ih fun hpath => h ?_
      exact hpath.head (shows_iff_mem_parts.mpr hmem)

end Heap

end Script
