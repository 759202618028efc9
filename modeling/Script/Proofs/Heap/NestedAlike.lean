import Script.Proofs.Heap.Equivalence
import Script.Proofs.Heap.Shown

/-!
# Equal values are nested alike

A value that is equal to another is nested no more deeply: each of its parts is equal to a part of
the other, or is the same key (`Heap.NestsWithin.of_equal`). So a value that is equal to an item of
an acyclic list does not reach that list (`Heap.Acyclic.not_reached`), and no value that leads into
a cycle is equal to one that does not (`Heap.Acyclic.of_equals`). Values that do not reach a list
are nested, and compare with each other, in the same way whatever its items are
(`Heap.NestsWithin.with_list`, `Heap.equal_within_with_list`).
-/

namespace Script

/-! ## Comparisons of the same parts -/

section Congr

variable {agree agree' : Value → Value → Except Fault Bool}

theorem Heap.all_agree_congr {xs ys : List Value}
    (h : ∀ x ∈ xs, ∀ y ∈ ys, agree x y = agree' x y) :
    Heap.allAgree agree xs ys = Heap.allAgree agree' xs ys := by
  induction xs generalizing ys with
  | nil => rfl
  | cons x xs ih =>
      cases ys with
      | nil => rfl
      | cons y ys =>
          have hrest : Heap.allAgree agree xs ys = Heap.allAgree agree' xs ys :=
            ih fun x hx y hy => h x (List.mem_cons_of_mem _ hx) y (List.mem_cons_of_mem _ hy)
          rw [Heap.allAgree, Heap.allAgree, h x List.mem_cons_self y List.mem_cons_self, hrest]

theorem Heap.entries_agree_congr {other : Dict} {entries : List (Value × Value)}
    (h : ∀ entry ∈ entries, ∀ value ∈ other.values, agree value entry.2 = agree' value entry.2) :
    Heap.entriesAgree agree other entries = Heap.entriesAgree agree' other entries := by
  induction entries with
  | nil => rfl
  | cons entry entries ih =>
      obtain ⟨hentry, hrest⟩ := List.forall_mem_cons.mp h
      unfold Heap.entriesAgree
      split
      · rfl
      · rename_i value hfound
        obtain ⟨found, hmem, rfl⟩ := Option.map_eq_some_iff.mp hfound
        rw [hentry _ (List.mem_map_of_mem (List.mem_of_find?_eq_some hmem)), ih hrest]

/-- Shapes are compared by how their parts compare. -/
theorem Shape.compare_congr {s t : Shape}
    (h : ∀ x ∈ s.parts, ∀ y ∈ t.parts, agree x y = agree' x y ∧ agree y x = agree' y x) :
    s.compare agree t = s.compare agree' t := by
  unfold Shape.compare
  split
  · refine ite_congr rfl (fun _ => rfl) fun _ => ?_
    exact Heap.all_agree_congr fun x hx y hy => (h x hx y hy).1
  · exact Heap.all_agree_congr fun x hx y hy => (h x hx y hy).1
  · refine ite_congr rfl (fun _ => rfl) fun _ => ?_
    refine Heap.entries_agree_congr fun entry hentry value hvalue => ?_
    exact (h _ (List.mem_append_right _ (List.mem_map_of_mem hentry)) _
      (List.mem_append_right _ hvalue)).2
  all_goals rfl

end Congr

namespace Heap

open Relation

variable {heap : Heap} {id : ListId} {items : Array Value} {depth limit : Nat}
  {a b value item : Value}

/-! ## Lists that are not reached -/

/-- A list that has an item gets the new items. -/
theorem list_with_list (hitem : item ∈ (heap.list id).toList) :
    (heap.withList id items).list id = items := by
  have hid : id < heap.lists.next := by
    refine Nat.lt_of_not_le fun hout => ?_
    have hnone : heap.list id = #[] := Store.get_of_le hout
    rw [hnone] at hitem
    cases hitem
  show (heap.lists.modify id _).get id = items
  rw [Store.get_modify _ _ _ _ hid, if_pos rfl]

/-- Only the list itself is shaped anew. -/
theorem shape_with_list (h : value ≠ .list id) :
    (heap.withList id items).shape value = heap.shape value := by
  cases value with
  | list other =>
      have hne : other ≠ id := fun heq => h (congrArg Value.list heq)
      show Shape.list _ = Shape.list _
      rw [list_with_list_of_ne hne]
  | _ => rfl

/-- What is a part of a value other than the list itself stays so. -/
theorem has_part_with_list_iff {part : Value} (h : value ≠ .list id) :
    (heap.withList id items).HasPart value part ↔ heap.HasPart value part := by
  unfold HasPart parts
  rw [shape_with_list h]

/-- A way to the list leads to it whatever its items are. -/
theorem reaches_with_list (h : ReflTransGen heap.HasPart value (.list id)) :
    ReflTransGen (heap.withList id items).HasPart value (.list id) := by
  induction h using ReflTransGen.head_induction_on with
  | refl => exact .refl
  | @head first next hpart _ ih =>
      by_cases hfirst : first = .list id
      · exact hfirst ▸ .refl
      · exact ih.head ((has_part_with_list_iff hfirst).mpr hpart)

/-- A value that does not reach the list reaches nothing else when the list has other items. -/
theorem reached_with_list {part : Value} (h : ¬ReflTransGen heap.HasPart value (.list id))
    (hpath : ReflTransGen (heap.withList id items).HasPart value part) :
    ReflTransGen heap.HasPart value part := by
  induction hpath with
  | refl => exact .refl
  | @tail middle last _ hlast ih =>
      have hmiddle : middle ≠ .list id := fun heq => h (heq ▸ ih)
      exact ih.tail ((has_part_with_list_iff hmiddle).mp hlast)

theorem FloatFree.with_list (hfree : heap.FloatFree value)
    (h : ¬ReflTransGen heap.HasPart value (.list id)) :
    (heap.withList id items).FloatFree value :=
  fun part hpath => hfree part (reached_with_list h hpath)

theorem NestsWithin.with_list (hnests : heap.NestsWithin depth value)
    (h : ¬ReflTransGen heap.HasPart value (.list id)) :
    (heap.withList id items).NestsWithin depth value := by
  induction depth generalizing value with
  | zero => exact hnests
  | succ depth ih =>
      intro part hpart
      have hvalue : value ≠ .list id := fun heq => h (heq ▸ .refl)
      have hpart := (has_part_with_list_iff hvalue).mp hpart
      exact ih (hnests part hpart) fun hpath => h (hpath.head hpart)

/-- The items of a list have no influence on the comparison of values that do not reach the list. -/
theorem equal_within_with_list (ha : ¬ReflTransGen heap.HasPart a (.list id))
    (hb : ¬ReflTransGen heap.HasPart b (.list id)) :
    (heap.withList id items).equalWithin depth a b = heap.equalWithin depth a b := by
  induction depth generalizing a b with
  | zero => rfl
  | succ depth ih =>
      have hne {value : Value} (h : ¬ReflTransGen heap.HasPart value (.list id)) :
          value ≠ .list id := fun heq => h (heq ▸ .refl)
      have hpart {whole part : Value} (h : ¬ReflTransGen heap.HasPart whole (.list id))
          (hpart : part ∈ heap.parts whole) : ¬ReflTransGen heap.HasPart part (.list id) :=
        fun hpath => h (hpath.head hpart)
      rw [equal_within_succ, equal_within_succ, shape_with_list (hne ha), shape_with_list (hne hb)]
      refine Shape.compare_congr fun x hx y hy => ?_
      have hx := hpart ha hx
      have hy := hpart hb hy
      unfold agree
      exact ⟨by rw [ih hx hy], by rw [ih hy hx]⟩

end Heap

/-! ## Parts that correspond -/

variable [KnownClasses]

omit [KnownClasses] in
theorem forall₂_exists {R : Value → Value → Prop} {xs ys : List Value} {x : Value}
    (h : List.Forall₂ R xs ys) (hx : x ∈ xs) : ∃ y ∈ ys, R x y := by
  induction h with
  | nil => cases hx
  | @cons first other xs ys hfirst _ ih =>
      obtain rfl | hrest := List.mem_cons.mp hx
      · exact ⟨other, List.mem_cons_self, hfirst⟩
      · obtain ⟨y, hy, hR⟩ := ih hrest
        exact ⟨y, List.mem_cons_of_mem _ hy, hR⟩

namespace Shape

variable {R : Value → Value → Prop} {s t : Shape} {x y : Value}

/-- Two parts are related, or are the same key. -/
def Correspond (R : Value → Value → Prop) (x y : Value) : Prop :=
  R x y ∨ R y x ∨ x.isHashable = true ∧ x.sameKey y = true

omit [KnownClasses] in
theorem Correspond.of_flip (h : Correspond (fun x y => R y x) x y) : Correspond R x y := by
  obtain h | h | h := h
  · exact .inr (.inl h)
  · exact .inl h
  · exact .inr (.inr h)

/-- The keys of a dictionary or set correspond to the same keys. -/
theorem exists_same_key {keys others : List Value} (hkeys : Keys.Sound keys) (hx : x ∈ keys)
    (h : ∃ y ∈ others, x.sameKey y = true) : ∃ y ∈ others, Correspond R x y := by
  obtain ⟨y, hy, hsame⟩ := h
  exact ⟨y, hy, .inr (.inr ⟨hkeys.hashable x hx, hsame⟩)⟩

/-- To each part of a dictionary corresponds one of another dictionary if to each entry there does.
-/
theorem exists_dict_part {entries others : Dict} (hentries : entries.Sound)
    (h : ∀ entry ∈ entries.entries, ∃ other ∈ others.entries,
      entry.1.sameKey other.1 = true ∧ R entry.2 other.2)
    (hx : x ∈ (Shape.dict entries).parts) :
    ∃ y ∈ (Shape.dict others).parts, Correspond R x y := by
  obtain hkey | hvalue := List.mem_append.mp hx
  · obtain ⟨y, hy, hsame⟩ : ∃ y ∈ others.keys, Correspond R x y := by
      refine exists_same_key hentries.keys hkey ?_
      obtain ⟨entry, hentry, rfl⟩ := List.mem_map.mp hkey
      obtain ⟨other, hother, hsame, -⟩ := h entry hentry
      exact ⟨other.1, List.mem_map_of_mem hother, hsame⟩
    exact ⟨y, List.mem_append_left _ hy, hsame⟩
  · obtain ⟨entry, hentry, rfl⟩ := List.mem_map.mp hvalue
    obtain ⟨other, hother, -, hR⟩ := h entry hentry
    exact ⟨other.2, List.mem_append_right _ (List.mem_map_of_mem hother), .inl hR⟩

/-- To each part of a shape corresponds one of a shape that is alike. -/
theorem Alike.exists_part (hs : s.Sound) (ht : t.Sound) (h : s.Alike R t) (hx : x ∈ s.parts) :
    ∃ y ∈ t.parts, Correspond R x y := by
  cases h with
  | list h | tuple h =>
      obtain ⟨y, hy, hR⟩ := forall₂_exists h hx
      exact ⟨y, hy, .inl hR⟩
  | @dict _ others hsize h =>
      obtain ⟨y, hy, hxy⟩ : ∃ y ∈ (Shape.dict others).parts,
          Correspond (fun x y => R y x) x y :=
        exists_dict_part (hs.dict rfl) (fun entry hentry =>
          exists_entry (hs.dict rfl) (ht.dict rfl) h hentry) hx
      exact ⟨y, hy, hxy.of_flip⟩
  | members h => exact exists_same_key (hs.members rfl) hx ((Keys.same_set_iff.mp h).2 x hx)
  | error | bytes | atom => cases hx

/-- The same is true of a shape that the other one is alike to. -/
theorem Alike.exists_part_back (hs : s.Sound) (ht : t.Sound) (h : t.Alike R s)
    (hx : x ∈ s.parts) : ∃ y ∈ t.parts, Correspond R x y := by
  cases h with
  | list h | tuple h =>
      obtain ⟨y, hy, hR⟩ := forall₂_exists h.flip hx
      exact ⟨y, hy, .inr (.inl hR)⟩
  | dict hsize h =>
      exact exists_dict_part (hs.dict rfl) (fun entry hentry =>
        exists_entry_back (ht.dict rfl) (hs.dict rfl) hsize h hentry) hx
  | members h =>
      have hback := Keys.same_set_symm (ht.members rfl) (hs.members rfl) h
      exact exists_same_key (hs.members rfl) hx ((Keys.same_set_iff.mp hback).2 x hx)
  | error | bytes | atom => cases hx

end Shape

namespace Heap

open Relation

variable {heap : Heap} {id : ListId} {depth limit : Nat} {a b value item : Value}

/-- Keys that are the same are nested alike. -/
theorem NestsWithin.of_same_key (ha : a.isHashable = true) (hsound : a.Sound)
    (h : a.sameKey b = true) (hb : heap.NestsWithin depth b) : heap.NestsWithin depth a := by
  induction a using Value.inductionOnParts generalizing b depth with
  | tuple mark xs ih =>
      obtain ⟨mark', ys, rfl, hys⟩ := (Value.same_key_tuple_iff mark xs b).mp h
      rw [Value.isHashable, hashable_items_iff] at ha
      rw [Value.sound_tuple_iff] at hsound
      cases depth with
      | zero => exact hb
      | succ depth =>
          intro x hx
          obtain ⟨y, hy, hsame⟩ := forall₂_exists hys hx
          exact ih x hx (ha x hx) (hsound x hx) hsame (hb y hy)
  | frozenset mark xs ih =>
      obtain ⟨mark', ys, rfl, -, hys⟩ := (Value.same_key_frozenset_iff mark xs b).mp h
      rw [Value.sound_frozenset_iff] at hsound
      cases depth with
      | zero => exact hb
      | succ depth =>
          intro x hx
          obtain ⟨y, hy, hsame⟩ := hys x hx
          exact ih x hx (hsound.1.hashable x hx) (hsound.2 x hx) hsame (hb y hy)
  | atom a hatom =>
      cases depth with
      | zero => exact hb
      | succ depth =>
          intro x hx
          cases a with
          | tuple | frozenset => cases hatom
          | list | dict | set => cases ha
          | _ => cases hx

/-- Parts agree that are one and the same value, or are equal, if one of them is no double. -/
theorem agree_cases_of_fine {x y : Value} (hy : heap.Fine y)
    (h : heap.agree depth x y = .ok true ∨ heap.agree depth y x = .ok true) :
    x = y ∨ heap.equalWithin depth x y = .ok true ∨ heap.equalWithin depth y x = .ok true := by
  obtain h | h := h
  · unfold agree at h
    split at h
    · rename_i hidentical
      have hfloating := (Value.isFloating_of_identical hidentical).trans (hy.floatFree y .refl)
      exact .inl (Value.eq_of_identical hfloating hidentical)
    · exact .inr (.inl h)
  · obtain heq | hequal := agree_cases hy h
    · exact .inl heq.symm
    · exact .inr (.inr hequal)

/-- Equal values are nested alike, whichever is compared with the other. It is enough if no double
is part of the second. -/
theorem NestsWithin.of_equal (hheap : heap.Sound) (ha : a.Sound) (hb : heap.Fine b)
    (h : heap.equalWithin limit a b = .ok true ∨ heap.equalWithin limit b a = .ok true)
    (hnests : heap.NestsWithin depth b) : heap.NestsWithin depth a := by
  -- The induction is on how deeply the second value is nested: what the limit on the comparison is
  -- does not matter, and which of two parts is compared with the other varies.
  induction depth generalizing a b limit with
  | zero => exact hnests
  | succ depth ih =>
      intro x hx
      cases limit with
      | zero => exact h.elim nofun nofun
      | succ limit =>
          have hs := sound_shape hheap ha
          have ht := sound_shape hheap hb.sound
          rw [equal_within_succ, equal_within_succ, Shape.compare_eq_true_iff,
            Shape.compare_eq_true_iff] at h
          obtain ⟨y, hy, hcases⟩ := h.elim (fun h => h.exists_part hs ht hx)
            fun h => h.exists_part_back hs ht hx
          have hyfine := hb.part hheap hy
          obtain hagree | ⟨hhashable, hsame⟩ := or_assoc.mpr hcases
          · obtain rfl | hequal := agree_cases_of_fine hyfine hagree
            · exact hnests x hy
            · exact ih (hs.parts x hx) hyfine hequal (hnests y hy)
          · exact .of_same_key hhashable (hs.parts x hx) hsame (hnests y hy)

/-- A value that is equal to an acyclic one is acyclic. -/
theorem Acyclic.of_equals (hheap : heap.Sound) (ha : a.Sound) (hb : heap.Fine b)
    (hacyclic : heap.Acyclic b) (h : heap.Equals a b) : heap.Acyclic a := by
  obtain ⟨limit, hequal⟩ := h
  obtain ⟨depth, hnests⟩ := hacyclic.exists_nests
  exact (NestsWithin.of_equal hheap ha hb (.inl hequal) hnests).acyclic

/-- An acyclic list is not reached from what is equal to one of its items. -/
theorem Acyclic.not_reached (hheap : heap.Sound) (hacyclic : heap.Acyclic (.list id))
    (hitem : item ∈ (heap.list id).toList) (hfine : heap.Fine item) (hvalue : value.Sound)
    (h : heap.Equals item value) : ¬ReflTransGen heap.HasPart value (.list id) := by
  intro hpath
  obtain ⟨limit, hequal⟩ := h
  -- A list that is reached from its item would be nested less deeply than itself.
  have hdeep (depth : Nat) : ¬heap.NestsWithin depth (.list id) := by
    induction depth with
    | zero => exact fun hnests => hnests
    | succ depth ih =>
        intro hnests
        have hnested := NestsWithin.of_equal hheap hvalue hfine (.inr hequal) (hnests item hitem)
        exact ih (hnested.reached hpath)
  obtain ⟨depth, hnests⟩ := hacyclic.exists_nests
  exact hdeep depth hnests

/-- How an item that stays in a list compares with an acyclic value that does not reach the list is
the same when others are taken out. -/
theorem equals_with_list_iff {items : Array Value} (hheap : heap.Sound) (hvalue : heap.Fine value)
    (hacyclic : heap.Acyclic value) (h : ¬ReflTransGen heap.HasPart value (.list id))
    (hold : ∀ item ∈ items.toList, item ∈ (heap.list id).toList) (hitem : item ∈ items.toList) :
    (heap.withList id items).Equals item value ↔ heap.Equals item value := by
  by_cases hpath : ReflTransGen heap.HasPart item (.list id)
  · -- The item leads into a cycle through the list, before and after.
    have hsound {other : Value} (hother : other ∈ items.toList) : other.Sound :=
      hheap.list id other (Array.mem_toList_iff.mp (hold other hother))
    have hafter : (heap.withList id items).Sound := hheap.modify_list id fun _ _ other hother =>
      hsound (Array.mem_toList_iff.mpr hother)
    obtain ⟨depth, hnests⟩ := hacyclic.exists_nests
    constructor
    · intro hequals
      have hcycle := Acyclic.of_equals hafter (hsound hitem)
        ⟨hvalue.sound, hvalue.floatFree.with_list h⟩ (hnests.with_list h).acyclic hequals
      have hpart : (heap.withList id items).HasPart (.list id) item := by
        show item ∈ ((heap.withList id items).list id).toList
        rwa [list_with_list (hold item hitem)]
      have hback : ReflTransGen (heap.withList id items).HasPart item (.list id) :=
        reaches_with_list hpath
      exact (hcycle (.list id) hback (.head' hpart hback)).elim
    · intro hequals
      have hcycle := Acyclic.of_equals hheap (hsound hitem) hvalue hacyclic hequals
      have hpart : heap.HasPart (.list id) item := hold item hitem
      exact (hcycle (.list id) hpath (.head' hpart hpath)).elim
  · exact exists_congr fun depth => by rw [equal_within_with_list hpath h]

end Heap

end Script
