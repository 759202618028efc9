import Mathlib.Data.Finset.SymmDiff
import Script.Proofs.Heap.Equality
import Script.Proofs.Heap.Sound

/-!
# Sets of keys as finite sets

Sameness of keys divides the values into classes (`Value.Key`), and a list of pairwise different
keys stands for the finite set of the classes of its members (`Keys.classes`). The operations on
such lists are the operations on finite sets: each of them has one lemma here, and from these the
laws of finite sets carry over to the sets of programs.
-/

namespace Script

namespace Value

/-- The values are the same key, either way. -/
instance keySetoid : Setoid Value where
  r a b := a.sameKey b = true ∧ b.sameKey a = true
  iseqv :=
    { refl := fun a => ⟨a.same_key_refl, a.same_key_refl⟩
      symm := And.symm
      trans := fun h h' => ⟨same_key_trans h.1 h'.1, same_key_trans h'.2 h.2⟩ }

instance (a b : Value) : Decidable (a ≈ b) :=
  inferInstanceAs (Decidable (a.sameKey b = true ∧ b.sameKey a = true))

/-- What is left of values if those that are the same key are not told apart. -/
def Key : Type :=
  Quotient keySetoid

/-- The key that a value is. -/
def key (value : Value) : Key :=
  Quotient.mk keySetoid value

instance : DecidableEq Key :=
  inferInstanceAs (DecidableEq (Quotient keySetoid))

theorem key_eq_iff [KnownClasses] {a b : Value} (ha : a.Sound) (hb : b.Sound) :
    a.key = b.key ↔ a.sameKey b = true := by
  have hclass : a.key = b.key ↔ a.sameKey b = true ∧ b.sameKey a = true := Quotient.eq
  rw [hclass]
  exact ⟨fun h => h.1, fun h => ⟨h, same_key_symm ha hb h⟩⟩

end Value

namespace Keys

open scoped symmDiff

/-- The members of a set, where keys that are the same are not told apart. -/
def classes (keys : List Value) : Finset Value.Key :=
  (keys.map Value.key).toFinset

variable [KnownClasses] {keys others : List Value} {key : Value} {k : Value.Key}

omit [KnownClasses] in
theorem mem_classes : k ∈ classes keys ↔ ∃ key ∈ keys, key.key = k := by
  rw [classes, List.mem_toFinset, List.mem_map]

omit [KnownClasses] in
theorem classes_append (keys others : List Value) :
    classes (keys ++ others) = classes keys ∪ classes others := by
  rw [classes, List.map_append, List.toFinset_append]
  rfl

omit [KnownClasses] in
theorem classes_eq_empty_iff : classes keys = ∅ ↔ keys = [] := by
  rw [classes, List.toFinset_eq_empty_iff, List.map_eq_nil_iff]

/-- Being a member is having the class of a member. -/
theorem mem_iff (hkey : key.Sound) (h : ∀ other ∈ keys, other.Sound) :
    mem key keys = true ↔ key.key ∈ classes keys := by
  rw [mem, List.any_eq_true, mem_classes]
  refine exists_congr fun other => and_congr_right fun hother => ?_
  rw [← Value.key_eq_iff hkey (h other hother), eq_comm]

omit [KnownClasses] in
/-- Members that are chosen by their class alone. -/
theorem mem_classes_filter {test : Value → Bool} (good : Value.Key → Prop)
    (htest : ∀ key ∈ keys, test key = true ↔ good key.key) :
    k ∈ classes (keys.filter test) ↔ k ∈ classes keys ∧ good k := by
  rw [mem_classes, mem_classes]
  constructor
  · rintro ⟨key, hmem, rfl⟩
    obtain ⟨hmem, hkey⟩ := List.mem_filter.mp hmem
    exact ⟨⟨key, hmem, rfl⟩, (htest key hmem).mp hkey⟩
  · rintro ⟨⟨key, hmem, rfl⟩, hgood⟩
    exact ⟨key, List.mem_filter.mpr ⟨hmem, (htest key hmem).mpr hgood⟩, rfl⟩

/-! ## Each operation as one on finite sets -/

theorem classes_inter (hkeys : Fit keys) (hothers : Fit others) :
    classes (inter keys others) = classes keys ∩ classes others := by
  ext k
  rw [Finset.mem_inter]
  exact mem_classes_filter (· ∈ classes others) fun key hkey =>
    mem_iff (hkeys key hkey).2 fun other hother => (hothers other hother).2

theorem classes_diff (hkeys : Fit keys) (hothers : Fit others) :
    classes (diff keys others) = classes keys \ classes others := by
  ext k
  rw [Finset.mem_sdiff]
  refine mem_classes_filter (· ∉ classes others) fun key hkey => ?_
  rw [← mem_iff (hkeys key hkey).2 fun other hother => (hothers other hother).2]
  simp

theorem classes_symm_diff (hkeys : Fit keys) (hothers : Fit others) :
    classes (symmDiff keys others) = classes keys ∆ classes others := by
  rw [symmDiff, classes_append, classes_diff hkeys hothers, classes_diff hothers hkeys]
  rfl

theorem classes_shared (hkeys : Fit keys) (hothers : Fit others) :
    classes (Operand.sharedKeys keys others) = classes keys ∩ classes others := by
  unfold Operand.sharedKeys
  split
  · exact classes_inter hkeys hothers
  · rw [classes_inter hothers hkeys, Finset.inter_comm]

theorem classes_insert (hkeys : Fit keys) (hkey : key.Sound) :
    classes (insert keys key) = classes keys ∪ {key.key} := by
  unfold insert
  split
  · rename_i hmem
    rw [mem_iff hkey fun other hother => (hkeys other hother).2] at hmem
    rw [Finset.union_eq_left.mpr (Finset.singleton_subset_iff.mpr hmem)]
  · rw [classes_append]
    rfl

theorem classes_insert_all (hkeys : Sound keys) (hothers : Fit others) :
    classes (insertAll keys others) = classes keys ∪ classes others := by
  unfold insertAll
  induction others generalizing keys with
  | nil => exact (Finset.union_empty _).symm
  | cons other others ih =>
      obtain ⟨⟨hhashable, hother⟩, hrest⟩ := List.forall_mem_cons.mp hothers
      have hcons : classes (other :: others) = {other.key} ∪ classes others :=
        classes_append [other] others
      rw [List.foldl_cons, ih (hkeys.insert hhashable hother) hrest,
        classes_insert hkeys.fit hother, Finset.union_assoc, hcons]

theorem classes_of_list (h : Fit keys) : classes (ofList keys) = classes keys := by
  rw [ofList, classes_insert_all .nil h]
  exact Finset.empty_union _

/-! ## Questions about sets as questions about finite sets -/

/-- Different keys are in different classes. -/
theorem card_classes (h : Sound keys) : (classes keys).card = keys.length := by
  have hnodup : (keys.map Value.key).Nodup := by
    refine List.pairwise_map.mpr (h.distinct.imp_of_mem fun hearlier hlater hdiffers => ?_)
    intro hsame
    rw [eq_comm, Value.key_eq_iff (h.sound _ hlater) (h.sound _ hearlier), hdiffers] at hsame
    cases hsame
  rw [classes, List.toFinset_card_of_nodup hnodup, List.length_map]

theorem subset_iff (hkeys : Fit keys) (hothers : Fit others) :
    subset keys others = true ↔ classes keys ⊆ classes others := by
  rw [subset, List.all_eq_true]
  constructor
  · intro h k hk
    obtain ⟨key, hkey, rfl⟩ := mem_classes.mp hk
    exact (mem_iff (hkeys key hkey).2 fun other hother => (hothers other hother).2).mp (h key hkey)
  · intro h key hkey
    refine (mem_iff (hkeys key hkey).2 fun other hother => (hothers other hother).2).mpr ?_
    exact h (mem_classes.mpr ⟨key, hkey, rfl⟩)

/-- Sets of the same size of which one is included in the other are the same. -/
theorem same_set_iff_classes (hkeys : Sound keys) (hothers : Sound others) :
    sameSet keys others = true ↔ classes keys = classes others := by
  rw [sameSet, Bool.and_eq_true, beq_iff_eq, subset_iff hkeys.fit hothers.fit,
    ← card_classes hkeys, ← card_classes hothers]
  constructor
  · rintro ⟨hcard, hsubset⟩
    exact Finset.eq_of_subset_of_card_le hsubset hcard.ge
  · intro h
    exact ⟨congrArg Finset.card h, h.subset⟩

theorem disjoint_iff (hkeys : Fit keys) (hothers : Fit others) :
    (!others.any fun other => mem other keys) = true ↔ classes keys ∩ classes others = ∅ := by
  have hfilter : classes (inter others keys) = classes others ∩ classes keys :=
    classes_inter hothers hkeys
  rw [Finset.inter_comm, ← hfilter, classes_eq_empty_iff, inter, List.filter_eq_nil_iff]
  simp

end Keys

end Script
