import Script.Proofs.Heap.Equality
import Script.Proofs.Heap.Sound

/-!
# Equality is an equivalence relation

Among acyclic values without doubles and complex numbers, `Heap.Equals` and `Heap.Same` are
equivalence relations if the heap is sound. A relation between parts is carried over to the shapes
that they are parts of (`Shape.Alike.refl`, `Shape.Alike.symm`, `Shape.Alike.trans`), and from there
to any depth. Dictionaries and sets are compared in one direction only: that equality is symmetric
for them rests on their keys being pairwise different.
-/

namespace Script

variable [KnownClasses]

/-! ## Keys and entries -/

namespace Keys

variable {keys others : List Value}

/-- Each key of the second set is met, because those of the first are pairwise different. -/
theorem Sound.met (hkeys : Sound keys) (hothers : Sound others)
    (hlength : keys.length = others.length)
    (hwithin : ∀ key ∈ keys, ∃ other ∈ others, key.sameKey other = true) :
    ∀ other ∈ others, ∃ key ∈ keys, other.sameKey key = true :=
  Value.keys_met hkeys.toProper hlength hwithin fun key hkey other hother =>
    Value.same_key_symm (hkeys.sound key hkey) (hothers.sound other hother)

theorem same_set_symm (hkeys : Sound keys) (hothers : Sound others)
    (h : sameSet keys others = true) : sameSet others keys = true := by
  obtain ⟨hlength, hwithin⟩ := same_set_iff.mp h
  exact same_set_iff.mpr ⟨hlength.symm, hkeys.met hothers hlength hwithin⟩

end Keys

namespace Dict

variable {dict : Dict} {first second : Value × Value} {key value : Value}

/-- No two entries have the same key. -/
theorem Sound.entry_eq (h : dict.Sound) (hfirst : first ∈ dict.entries)
    (hsecond : second ∈ dict.entries) (hsame : first.1.sameKey second.1 = true) :
    first = second := by
  let Differ (a b : Value × Value) : Prop :=
    a.1.sameKey b.1 = false ∧ b.1.sameKey a.1 = false
  have hdistinct : dict.entries.Pairwise fun a b => b.1.sameKey a.1 = false :=
    List.pairwise_map.mp h.keys.distinct
  have hdiffer : dict.entries.Pairwise Differ := by
    refine hdistinct.imp_of_mem fun {a b} ha hb hback => ⟨?_, hback⟩
    rw [← Bool.not_eq_true]
    intro hforth
    have hsymm := Value.same_key_symm (h.keys.sound _ (List.mem_map_of_mem ha))
      (h.keys.sound _ (List.mem_map_of_mem hb)) hforth
    rw [hback] at hsymm
    cases hsymm
  have : Std.Symm Differ := ⟨fun a b hab => ⟨hab.2, hab.1⟩⟩
  by_contra hne
  have hdiffers := (hdiffer.forall hfirst hsecond hne).1
  rw [hsame] at hdiffers
  cases hdiffers

/-- What is found under a key is bound to the one key that is the same. -/
theorem Sound.get_eq_some_iff (h : dict.Sound) (hkey : key.Sound) :
    dict.get? key = some value ↔
      ∃ entry ∈ dict.entries, key.sameKey entry.1 = true ∧ entry.2 = value := by
  unfold get?
  rw [Option.map_eq_some_iff]
  constructor
  · rintro ⟨entry, hfound, rfl⟩
    have hsame := List.find?_some hfound
    exact ⟨entry, List.mem_of_find?_eq_some hfound, hsame, rfl⟩
  · rintro ⟨entry, hentry, hsame, rfl⟩
    cases hfound : dict.entries.find? fun entry => key.sameKey entry.1 with
    | none =>
        have hnone := List.find?_eq_none.mp hfound entry hentry
        exact (hnone hsame).elim
    | some found =>
        have hmem := List.mem_of_find?_eq_some hfound
        have hsound := h.keys.sound _ (List.mem_map_of_mem hmem)
        have hforth := List.find?_some hfound
        have hback := Value.same_key_symm hkey hsound hforth
        rw [h.entry_eq hmem hentry (Value.same_key_trans hback hsame)]
        exact ⟨entry, rfl, rfl⟩

end Dict

/-! ## Laws of shapes -/

namespace Shape

/-- The parts of the shape are sound, and the keys among them are pairwise different. -/
structure Sound (shape : Shape) : Prop where
  parts : ∀ part ∈ shape.parts, part.Sound
  dict {entries : Dict} : shape = .dict entries → entries.Sound
  members {keys : List Value} : shape = .members keys → Keys.Sound keys

/-- The shape is not that of a double or complex number. -/
def Solid (shape : Shape) : Prop :=
  ∀ value, shape = .atom value → value.isFloating = false

variable {R : Value → Value → Prop} {s t u : Shape}

/-- The entry that an entry of the first dictionary is compared with. -/
theorem exists_entry {entries others : Dict} (hentries : entries.Sound) (hothers : others.Sound)
    (h : ∀ entry ∈ entries.entries,
      ∃ value, others.get? entry.1 = some value ∧ R value entry.2)
    {entry : Value × Value} (hentry : entry ∈ entries.entries) :
    ∃ other ∈ others.entries, entry.1.sameKey other.1 = true ∧ R other.2 entry.2 := by
  obtain ⟨value, hfound, hvalue⟩ := h entry hentry
  have hkey := hentries.keys.sound _ (List.mem_map_of_mem hentry)
  obtain ⟨other, hother, hsame, rfl⟩ := (hothers.get_eq_some_iff hkey).mp hfound
  exact ⟨other, hother, hsame, hvalue⟩

/-- The entry that is compared with an entry of the second dictionary, which is no larger. -/
theorem exists_entry_back {entries others : Dict} (hentries : entries.Sound)
    (hothers : others.Sound) (hsize : entries.size = others.size)
    (h : ∀ entry ∈ entries.entries,
      ∃ value, others.get? entry.1 = some value ∧ R value entry.2)
    {other : Value × Value} (hother : other ∈ others.entries) :
    ∃ entry ∈ entries.entries, other.1.sameKey entry.1 = true ∧ R other.2 entry.2 := by
  have hlength : entries.keys.length = others.keys.length := by
    simpa [Dict.keys, Dict.size] using hsize
  have hwithin : ∀ key ∈ entries.keys, ∃ other ∈ others.keys, key.sameKey other = true := by
    intro key hkey
    obtain ⟨entry, hentry, rfl⟩ := List.mem_map.mp hkey
    obtain ⟨other, hother, hsame, -⟩ := exists_entry hentries hothers h hentry
    exact ⟨other.1, List.mem_map_of_mem hother, hsame⟩
  obtain ⟨key, hkey, hback⟩ :=
    hentries.keys.met hothers.keys hlength hwithin other.1 (List.mem_map_of_mem hother)
  obtain ⟨entry, hentry, rfl⟩ := List.mem_map.mp hkey
  obtain ⟨found, hfound, hforth, hvalues⟩ := exists_entry hentries hothers h hentry
  obtain rfl := hothers.entry_eq hother hfound (Value.same_key_trans hback hforth)
  exact ⟨entry, hentry, hback, hvalues⟩

theorem Alike.refl (hs : s.Sound) (hatom : ∀ value, s = .atom value → value.atomEqual value = true)
    (hR : ∀ part ∈ s.parts, R part part) : s.Alike R s := by
  cases s with
  | list items => exact .list (List.forall₂_same.mpr hR)
  | tuple items => exact .tuple (List.forall₂_same.mpr hR)
  | dict entries =>
      have hentries := hs.dict rfl
      refine .dict rfl fun entry hentry => ⟨entry.2, ?_, ?_⟩
      · have hkey := hentries.keys.sound _ (List.mem_map_of_mem hentry)
        exact (hentries.get_eq_some_iff hkey).mpr ⟨entry, hentry, entry.1.same_key_refl, rfl⟩
      · exact hR _ (List.mem_append_right _ (List.mem_map_of_mem hentry))
  | error kind arguments => exact .error kind arguments
  | members keys => exact .members (Keys.same_set_refl keys)
  | bytes contents => exact .bytes contents
  | atom value => exact .atom (hatom value rfl)

theorem Alike.symm (hs : s.Sound) (ht : t.Sound) (hssolid : s.Solid) (htsolid : t.Solid)
    (hR : ∀ x ∈ s.parts, ∀ y ∈ t.parts, (R x y → R y x) ∧ (R y x → R x y))
    (h : s.Alike R t) : t.Alike R s := by
  cases h with
  | list h => exact .list (forall₂_symm h fun x hx y hy => (hR x hx y hy).1)
  | tuple h => exact .tuple (forall₂_symm h fun x hx y hy => (hR x hx y hy).1)
  | @dict entries others hsize h =>
      have hentries := hs.dict rfl
      have hothers := ht.dict rfl
      refine .dict hsize.symm fun other hother => ?_
      obtain ⟨entry, hentry, hback, hvalues⟩ :=
        exists_entry_back hentries hothers hsize h hother
      have hkey := hothers.keys.sound _ (List.mem_map_of_mem hother)
      have hbound := (hentries.get_eq_some_iff hkey).mpr ⟨entry, hentry, hback, rfl⟩
      have hsymm := hR _ (List.mem_append_right _ (List.mem_map_of_mem hentry)) _
        (List.mem_append_right _ (List.mem_map_of_mem hother))
      exact ⟨entry.2, hbound, hsymm.2 hvalues⟩
  | error kind arguments => exact .error kind arguments
  | members h => exact .members (Keys.same_set_symm (hs.members rfl) (ht.members rfl) h)
  | bytes contents => exact .bytes contents
  | atom h => exact .atom (Value.atom_equal_symm (hssolid _ rfl) (htsolid _ rfl) h)

theorem Alike.trans (hs : s.Sound) (ht : t.Sound) (hu : u.Sound) (hssolid : s.Solid)
    (htsolid : t.Solid)
    (hR : ∀ x ∈ s.parts, ∀ y ∈ t.parts, ∀ z ∈ u.parts,
      (R x y → R y z → R x z) ∧ (R z y → R y x → R z x))
    (h : s.Alike R t) (h' : t.Alike R u) : s.Alike R u := by
  cases h with
  | list h =>
      cases h' with
      | list h' => exact .list (forall₂_trans h h' fun x hx y hy z hz => (hR x hx y hy z hz).1)
  | tuple h =>
      cases h' with
      | tuple h' => exact .tuple (forall₂_trans h h' fun x hx y hy z hz => (hR x hx y hy z hz).1)
  | @dict entries others hsize h =>
      cases h' with
      | @dict _ more hsize' h' =>
          have hentries := hs.dict rfl
          have hothers := ht.dict rfl
          have hmore := hu.dict rfl
          refine .dict (hsize.trans hsize') fun entry hentry => ?_
          obtain ⟨other, hother, hsame, hvalues⟩ := exists_entry hentries hothers h hentry
          obtain ⟨last, hlast, hsame', hvalues'⟩ := exists_entry hothers hmore h' hother
          have hkey := hentries.keys.sound _ (List.mem_map_of_mem hentry)
          have hbound := (hmore.get_eq_some_iff hkey).mpr
            ⟨last, hlast, Value.same_key_trans hsame hsame', rfl⟩
          have htrans := hR _ (List.mem_append_right _ (List.mem_map_of_mem hentry)) _
            (List.mem_append_right _ (List.mem_map_of_mem hother)) _
            (List.mem_append_right _ (List.mem_map_of_mem hlast))
          exact ⟨last.2, hbound, htrans.2 hvalues' hvalues⟩
  | error kind arguments => exact h'
  | members h =>
      cases h' with
      | members h' => exact .members (Keys.same_set_trans h h')
  | bytes contents => exact h'
  | atom h =>
      cases h' with
      | atom h' => exact .atom (Value.atom_equal_trans (hssolid _ rfl) (htsolid _ rfl) h h')

end Shape

/-! ## Laws of equality -/

namespace Heap

/-- The value is sound, and no double and no complex number is among its parts. -/
structure Fine (heap : Heap) (value : Value) : Prop where
  sound : value.Sound
  floatFree : heap.FloatFree value

variable {heap : Heap} {depth : Nat} {a b c value x : Value}

theorem sound_shape (hheap : heap.Sound) (h : value.Sound) : (heap.shape value).Sound := by
  cases value with
  | list id =>
      refine ⟨fun part hpart => ?_, nofun, nofun⟩
      exact hheap.list id part (Array.mem_toList_iff.mp hpart)
  | tuple mark items => exact ⟨(Value.sound_tuple_iff mark items).mp h, nofun, nofun⟩
  | dict id =>
      have hdict := hheap.dict id
      refine ⟨fun part hpart => ?_, fun heq => ?_, nofun⟩
      · obtain hkey | hvalue := List.mem_append.mp hpart
        · exact hdict.keys.sound part hkey
        · obtain ⟨entry, hentry, rfl⟩ := List.mem_map.mp hvalue
          exact hdict.values entry hentry
      · cases heq
        exact hdict
  | set id =>
      refine ⟨(hheap.set id).sound, nofun, fun heq => ?_⟩
      cases heq
      exact hheap.set id
  | frozenset mark keys =>
      obtain ⟨hproper, hsound⟩ := (Value.sound_frozenset_iff mark keys).mp h
      refine ⟨hsound, nofun, fun heq => ?_⟩
      cases heq
      exact ⟨hproper, hsound⟩
  | _ => exact ⟨nofun, nofun, nofun⟩

theorem Fine.part (hheap : heap.Sound) (h : heap.Fine value) (hx : x ∈ heap.parts value) :
    heap.Fine x :=
  ⟨(sound_shape hheap h.sound).parts x hx, fun inner hinner => h.floatFree inner (.head hx hinner)⟩

theorem Fine.solid (h : heap.Fine value) : (heap.shape value).Solid := by
  intro atom hatom
  obtain ⟨rfl, -⟩ := eq_of_shape_atom hatom
  exact h.floatFree _ .refl

/-- Parts agree that are one and the same value, or are equal. -/
theorem agree_cases (hx : heap.Fine x) (h : heap.agree depth x y = .ok true) :
    x = y ∨ heap.equalWithin depth x y = .ok true := by
  unfold agree at h
  split at h
  · rename_i hidentical
    exact .inl (Value.eq_of_identical (hx.floatFree x .refl) hidentical)
  · exact .inr h

theorem equal_within_refl (hheap : heap.Sound) (h : heap.Fine value)
    (hnests : heap.NestsWithin depth value) : heap.equalWithin depth value value = .ok true := by
  induction depth generalizing value with
  | zero => exact hnests.elim
  | succ depth ih =>
      rw [equal_within_succ, Shape.compare_eq_true_iff]
      refine .refl (sound_shape hheap h.sound) (fun atom hatom => ?_) fun part hpart => ?_
      · have hsolid := h.solid atom hatom
        exact (Value.atom_equal_iff (eq_of_shape_atom hatom).2 hsolid).mpr rfl
      · exact agree_of_equal_within (ih (h.part hheap hpart) (hnests part hpart))

theorem equal_within_symm (hheap : heap.Sound) (ha : heap.Fine a) (hb : heap.Fine b)
    (h : heap.equalWithin depth a b = .ok true) : heap.equalWithin depth b a = .ok true := by
  induction depth generalizing a b with
  | zero => cases h
  | succ depth ih =>
      have hagree {x y : Value} (hx : heap.Fine x) (hy : heap.Fine y)
          (hxy : heap.agree depth x y = .ok true) : heap.agree depth y x = .ok true := by
        obtain rfl | hequal := agree_cases hx hxy
        · exact hxy
        · exact agree_of_equal_within (ih hx hy hequal)
      rw [equal_within_succ, Shape.compare_eq_true_iff] at h ⊢
      refine h.symm (sound_shape hheap ha.sound) (sound_shape hheap hb.sound) ha.solid hb.solid ?_
      intro x hx y hy
      have hx := ha.part hheap hx
      have hy := hb.part hheap hy
      exact ⟨hagree hx hy, hagree hy hx⟩

theorem equal_within_trans (hheap : heap.Sound) (ha : heap.Fine a) (hb : heap.Fine b)
    (hc : heap.Fine c) (h : heap.equalWithin depth a b = .ok true)
    (h' : heap.equalWithin depth b c = .ok true) : heap.equalWithin depth a c = .ok true := by
  induction depth generalizing a b c with
  | zero => cases h
  | succ depth ih =>
      have hagree {x y z : Value} (hx : heap.Fine x) (hy : heap.Fine y) (hz : heap.Fine z)
          (hxy : heap.agree depth x y = .ok true) (hyz : heap.agree depth y z = .ok true) :
          heap.agree depth x z = .ok true := by
        obtain rfl | hequal := agree_cases hx hxy
        · exact hyz
        obtain rfl | hequal' := agree_cases hy hyz
        · exact hxy
        · exact agree_of_equal_within (ih hx hy hz hequal hequal')
      rw [equal_within_succ, Shape.compare_eq_true_iff] at h h' ⊢
      refine h.trans (sound_shape hheap ha.sound) (sound_shape hheap hb.sound)
        (sound_shape hheap hc.sound) ha.solid hb.solid ?_ h'
      intro x hx y hy z hz
      have hx := ha.part hheap hx
      have hy := hb.part hheap hy
      have hz := hc.part hheap hz
      exact ⟨hagree hx hy hz, hagree hz hy hx⟩

theorem Equals.refl (hheap : heap.Sound) (h : heap.Fine value) (hacyclic : heap.Acyclic value) :
    heap.Equals value value := by
  obtain ⟨depth, hnests⟩ := hacyclic.exists_nests
  exact ⟨depth, equal_within_refl hheap h hnests⟩

theorem Equals.symm (hheap : heap.Sound) (ha : heap.Fine a) (hb : heap.Fine b)
    (h : heap.Equals a b) : heap.Equals b a := by
  obtain ⟨depth, hequal⟩ := h
  exact ⟨depth, equal_within_symm hheap ha hb hequal⟩

theorem Equals.trans (hheap : heap.Sound) (ha : heap.Fine a) (hb : heap.Fine b) (hc : heap.Fine c)
    (h : heap.Equals a b) (h' : heap.Equals b c) : heap.Equals a c := by
  obtain ⟨first, hfirst⟩ := h
  obtain ⟨second, hsecond⟩ := h'
  refine ⟨max first second, equal_within_trans hheap ha hb hc ?_ ?_⟩
  · exact equal_within_mono hfirst (Nat.le_max_left _ _)
  · exact equal_within_mono hsecond (Nat.le_max_right _ _)

/-! ## Laws of `is` -/

/-- Values that are the same are equal. -/
theorem Same.equals (hheap : heap.Sound) (ha : heap.Fine a) (hacyclic : heap.Acyclic a)
    (h : heap.Same a b) : heap.Equals a b := by
  obtain ⟨-, rfl⟩ | ⟨-, -, -, hequals⟩ := h
  · exact .refl hheap ha hacyclic
  · exact hequals

theorem Same.refl (hheap : heap.Sound) (h : heap.Fine value) (hacyclic : heap.Acyclic value) :
    heap.Same value value := by
  cases hmutable : value.isMutable with
  | true => exact .inl ⟨hmutable, rfl⟩
  | false =>
      exact .inr ⟨hmutable, hmutable, same_sort_refl hmutable, .refl hheap h hacyclic⟩

theorem Same.symm (hheap : heap.Sound) (ha : heap.Fine a) (hb : heap.Fine b)
    (h : heap.Same a b) : heap.Same b a := by
  obtain ⟨hmutable, rfl⟩ | ⟨hfirst, hsecond, hsort, hequals⟩ := h
  · exact .inl ⟨hmutable, rfl⟩
  · exact .inr ⟨hsecond, hfirst, same_sort_symm hsort, hequals.symm hheap ha hb⟩

theorem Same.trans (hheap : heap.Sound) (ha : heap.Fine a) (hb : heap.Fine b) (hc : heap.Fine c)
    (h : heap.Same a b) (h' : heap.Same b c) : heap.Same a c := by
  obtain ⟨-, rfl⟩ | ⟨hfirst, hsecond, hsort, hequals⟩ := h
  · exact h'
  · obtain ⟨hmutable, -⟩ | ⟨-, hthird, hsort', hequals'⟩ := h'
    · rw [hsecond] at hmutable
      cases hmutable
    · exact .inr ⟨hfirst, hthird, same_sort_trans hsort hsort',
        hequals.trans hheap ha hb hc hequals'⟩

end Heap

end Script
