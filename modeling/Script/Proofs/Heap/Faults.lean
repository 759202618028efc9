import Mathlib.Logic.Relation
import Script.Heap.Equality
import Script.Proofs.Heap.Layout

/-!
# Faults of texts and comparisons

What the machine can report while a value is shown, counted as true or false, compared or ordered.
Comparisons only fail if values are nested too deeply. Showing a value may also fail at an integer
with too many digits, and then the value is that integer or shows it: `Heap.Shows` says which parts
a value shows.
-/

namespace Script

namespace Heap

-- Powers are those of the core library, whatever other instances are in scope.
attribute [local instance (high)] instPowNat

/-- The parts that the text of a value shows. -/
inductive Shows (heap : Heap) : Value → Value → Prop where
  | item {id : ListId} {part : Value} (h : part ∈ heap.list id) : Shows heap (.list id) part
  | component {mark : Nat} {items : List Value} {part : Value} (h : part ∈ items) :
      Shows heap (.tuple mark items) part
  | key {id : DictId} {entry : Value × Value} (h : entry ∈ (heap.dict id).entries) :
      Shows heap (.dict id) entry.1
  | value {id : DictId} {entry : Value × Value} (h : entry ∈ (heap.dict id).entries) :
      Shows heap (.dict id) entry.2
  | member {id : SetId} {part : Value} (h : part ∈ heap.set id) : Shows heap (.set id) part
  | frozen {mark : Nat} {keys : List Value} {part : Value} (h : part ∈ keys) :
      Shows heap (.frozenset mark keys) part
  | field {id : InstanceId} {field : String × Value}
      (hstruct : (heap.classOf id).kind = .struct)
      (h : field ∈ (heap.instanceOf id).fields.entries) : Shows heap (.object id) field.2

/-- The parts that a value shows are those of its layout. -/
theorem shows_iff_mem_parts {heap : Heap} {whole part : Value} :
    heap.Shows whole part ↔ part ∈ (heap.layout whole).parts := by
  constructor
  · intro h
    cases h with
    | item hmem => exact Array.mem_toList_iff.mpr hmem
    | component hmem => exact hmem
    | key hmem => exact List.mem_append_left _ (List.mem_map_of_mem hmem)
    | value hmem => exact List.mem_append_right _ (List.mem_map_of_mem hmem)
    | member hmem => exact hmem
    | frozen hmem => exact hmem
    | field hstruct hmem =>
        rw [layout_object, if_pos hstruct]
        exact List.mem_map_of_mem hmem
  · intro h
    cases whole with
    | list id => exact .item (Array.mem_toList_iff.mp h)
    | tuple mark items => exact .component h
    | dict id =>
        obtain hkey | hvalue := List.mem_append.mp h
        · obtain ⟨entry, hmem, rfl⟩ := List.mem_map.mp hkey
          exact .key hmem
        · obtain ⟨entry, hmem, rfl⟩ := List.mem_map.mp hvalue
          exact .value hmem
    | set id => exact .member h
    | frozenset mark keys => exact .frozen h
    | object id =>
        rw [layout_object] at h
        split at h
        · rename_i hstruct
          obtain ⟨field, hmem, rfl⟩ := List.mem_map.mp h
          exact .field hstruct hmem
        · cases h
    | _ => cases h

/-- The integer has more digits than are ever turned into text. -/
def IsLong (n : Int) : Prop :=
  10 ^ Number.maxTextDigits ≤ n.natAbs

/-- The value is an integer with too many digits, or a range with such a bound or step. -/
inductive HasLong : Value → Prop where
  | int {n : Int} (h : IsLong n) : HasLong (.int n)
  | range {range : Range} {n : Int} (hmem : n ∈ [range.start, range.stop, range.step])
      (h : IsLong n) : HasLong (.range range)

/-- The text of the value would contain an integer with too many digits. -/
def ShowsLong (heap : Heap) (value : Value) : Prop :=
  ∃ part, Relation.ReflTransGen heap.Shows value part ∧ HasLong part

variable {heap : Heap} {fault : Fault}

theorem ShowsLong.of_part {whole part : Value} (hpart : heap.Shows whole part)
    (h : heap.ShowsLong part) : heap.ShowsLong whole := by
  obtain ⟨inner, hinner, hlong⟩ := h
  exact ⟨inner, hinner.head hpart, hlong⟩

theorem int_text_fault {n : Int} (h : intText n = .error fault) :
    fault = .longInteger ∧ IsLong n := by
  unfold intText Number.text? at h
  by_cases hshort : n.natAbs < 10 ^ Number.maxTextDigits
  · rw [if_pos hshort] at h
    cases h
  · rw [if_neg hshort] at h
    cases h
    exact ⟨rfl, Nat.le_of_not_lt hshort⟩

theorem range_text_fault {range : Range} (h : rangeText range = .error fault) :
    fault = .longInteger ∧ HasLong (.range range) := by
  have hbound {n : Int} (hmem : n ∈ [range.start, range.stop, range.step])
      (htext : intText n = .error fault) : fault = .longInteger ∧ HasLong (.range range) :=
    ⟨(int_text_fault htext).1, .range hmem (int_text_fault htext).2⟩
  unfold rangeText at h
  obtain hstart | ⟨start, -, h⟩ := bind_eq_error h
  · exact hbound (by simp) hstart
  obtain hstop | ⟨stop, -, h⟩ := bind_eq_error h
  · exact hbound (by simp) hstop
  split at h
  · cases h
  · obtain hstep | ⟨step, -, h⟩ := bind_eq_error h
    · exact hbound (by simp) hstep
    · cases h

/-- A value without parts has no text if it is an integer with too many digits, or a range with such
a bound or step. -/
theorem has_long_of_plain {value : Value} (h : heap.layout value = .plain (.error fault)) :
    fault = .longInteger ∧ HasLong value := by
  cases value with
  | int n =>
      obtain ⟨hfault, hlong⟩ := int_text_fault (Layout.plain.inj h)
      exact ⟨hfault, .int hlong⟩
  | range range => exact range_text_fault (Layout.plain.inj h)
  | object id =>
      rw [layout_object] at h
      split at h <;> cases h
  | _ => cases h

/-- A value without a text is nested too deeply, or shows an integer with too many digits. -/
theorem display_within_fault {depth : Nat} {value : Value}
    (h : heap.displayWithin depth value = .error fault) :
    fault = .recursion ∨ fault = .longInteger ∧ heap.ShowsLong value := by
  induction depth generalizing value with
  | zero =>
      cases h
      exact .inl rfl
  | succ depth ih =>
      rw [display_within_succ] at h
      obtain hplain | ⟨part, hmem, htext⟩ := Layout.render_error h
      · obtain ⟨hfault, hlong⟩ := has_long_of_plain hplain
        exact .inr ⟨hfault, value, .refl, hlong⟩
      · have hpart : heap.Shows value part := shows_iff_mem_parts.mpr hmem
        exact (ih htext).imp_right fun hlong => ⟨hlong.1, hlong.2.of_part hpart⟩

theorem display_fault {value : Value} (h : heap.display value = .error fault) :
    fault = .recursion ∨ fault = .longInteger ∧ heap.ShowsLong value :=
  display_within_fault h

/-- A range with too many members to count is the only value that is neither true nor false. -/
theorem is_truthy_fault {value : Value} (h : heap.isTruthy value = .error fault) :
    ∃ message, fault = .overflow message := by
  unfold isTruthy at h
  cases value with
  | range range =>
      obtain hlength | ⟨length, -, h⟩ := bind_eq_error h
      · unfold rangeLength at hlength
        split at hlength <;> cases hlength
        exact ⟨_, rfl⟩
      · cases h
  | _ => cases h

/-! ## Comparisons -/

theorem all_agree_fault {agree : Value → Value → Except Fault Bool}
    (hagree : ∀ x y, agree x y = .error fault → fault = .recursion) {xs ys : List Value}
    (h : allAgree agree xs ys = .error fault) : fault = .recursion := by
  fun_induction allAgree agree xs ys with
  | case1 x xs y ys ih =>
      obtain hfirst | ⟨same, -, h⟩ := bind_eq_error h
      · exact hagree x y hfirst
      · cases same
        · cases h
        · exact ih h
  | case2 xs ys => cases h

theorem entries_agree_fault {agree : Value → Value → Except Fault Bool}
    (hagree : ∀ x y, agree x y = .error fault → fault = .recursion) {other : Dict}
    {entries : List (Value × Value)} (h : entriesAgree agree other entries = .error fault) :
    fault = .recursion := by
  induction entries with
  | nil => cases h
  | cons entry entries ih =>
      unfold entriesAgree at h
      split at h
      · cases h
      · obtain hfirst | ⟨same, -, h⟩ := bind_eq_error h
        · exact hagree _ _ hfirst
        · cases same
          · cases h
          · exact ih h

theorem first_difference_fault {agree : Value → Value → Except Fault Bool}
    (hagree : ∀ x y, agree x y = .error fault → fault = .recursion) {xs ys : List Value}
    (h : firstDifference agree xs ys = .error fault) : fault = .recursion := by
  fun_induction firstDifference agree xs ys with
  | case1 x xs y ys ih =>
      obtain hfirst | ⟨same, -, h⟩ := bind_eq_error h
      · exact hagree x y hfirst
      · cases same
        · cases h
        · exact ih h
  | case2 xs ys => cases h

/-- Values that cannot be compared are nested too deeply. -/
theorem equal_within_fault {depth : Nat} {a b : Value}
    (h : heap.equalWithin depth a b = .error fault) : fault = .recursion := by
  induction depth generalizing a b with
  | zero =>
      cases h
      rfl
  | succ depth ih =>
      have hagree (x y : Value)
          (hrun : (if x.isIdentical y then .ok true else heap.equalWithin depth x y) =
            .error fault) : fault = .recursion := by
        split at hrun
        · cases hrun
        · exact ih hrun
      unfold equalWithin at h
      dsimp only at h
      split at h
      · split at h
        · cases h
        · exact all_agree_fault hagree h
      · exact all_agree_fault hagree h
      · split at h
        · cases h
        · exact entries_agree_fault hagree h
      · cases h
      · split at h
        · cases h
        · split at h <;> cases h

theorem equal_fault {a b : Value} (h : heap.equal a b = .error fault) : fault = .recursion :=
  equal_within_fault h

theorem same_or_equal_fault {a b : Value} (h : heap.sameOrEqual a b = .error fault) :
    fault = .recursion := by
  unfold sameOrEqual at h
  split at h
  · cases h
  · exact equal_fault h

theorem same_fault {a b : Value} (h : heap.same a b = .error fault) : fault = .recursion := by
  unfold same at h
  split at h
  · cases h
  · split at h
    · exact equal_fault h
    · cases h

/-- Two rows are ordered by their first difference, or by where one of them ends. -/
theorem sequences_fault {agree : Value → Value → Except Fault Bool}
    {order : Value → Value → Except Failure Bool} {comparison : Comparison} {xs ys : List Value}
    (hagree : ∀ x y, agree x y = .error fault → fault = .recursion)
    (horder : ∀ x y, order x y = .error (.fault fault) → fault = .recursion)
    (hrun : (do
      match ← liftFault (firstDifference agree xs ys) with
      | .inl (x, y) => order x y
      | .inr order => return comparison.holds order : Except Failure Bool) =
      .error (.fault fault)) : fault = .recursion := by
  obtain hdifference | ⟨difference, -, hrun⟩ := bind_eq_error hrun
  · unfold liftFault at hdifference
    split at hdifference
    · cases hdifference
    · rename_i hfirst
      cases hdifference
      exact first_difference_fault hagree hfirst
  · split at hrun
    · exact horder _ _ hrun
    · cases hrun

/-- Values that are ordered neither way nor refused are nested too deeply. -/
theorem ordered_within_fault {comparison : Comparison} {depth : Nat} {a b : Value}
    (h : heap.orderedWithin comparison depth a b = .error (.fault fault)) :
    fault = .recursion := by
  induction depth generalizing a b with
  | zero =>
      cases h
      rfl
  | succ depth ih =>
      have hagree (x y : Value)
          (hrun : (if x.isIdentical y then .ok true else heap.equalWithin depth x y) =
            .error fault) : fault = .recursion := by
        split at hrun
        · cases hrun
        · exact equal_within_fault hrun
      unfold orderedWithin at h
      dsimp only at h
      split at h
      · cases h
      · exact sequences_fault hagree (fun _ _ => ih) h
      · exact sequences_fault hagree (fun _ _ => ih) h
      · split at h
        · cases h
        · split at h
          · cases h
          · split at h
            · cases h
            · cases h
            · split at h <;> cases h
            · cases h

theorem ordered_fault {comparison : Comparison} {a b : Value}
    (h : heap.ordered comparison a b = .error (.fault fault)) : fault = .recursion := by
  unfold ordered at h
  split at h
  · exact ordered_within_fault h
  · cases h

end Heap

end Script
