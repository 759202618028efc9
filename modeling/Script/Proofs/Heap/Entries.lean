import Script.Proofs.Heap.Equivalence

/-!
# Entries of dictionaries

A dictionary is a row of entries with pairwise different keys. Binding a key that is there changes
the value in its place, and binding one that is not there adds an entry at the end
(`Dict.insert_into_present`, `Dict.insert_into_absent`); erasing a key takes out its entry only
(`Dict.Sound.erase_split`). So what is found under a key after another dictionary has been taken
over, and in which order the keys are, can be read off both dictionaries
(`Dict.Sound.get_insert_all`, `Dict.keys_insert_all`). Possible keys are the same key exactly if
they are equal (`Heap.equals_iff_same_key`).
-/

namespace Script

/-! ## Keys that are the same -/

namespace Value

mutual

/-- How deeply tuples are nested in the value. -/
def height : Value → Nat
  | .tuple _ items => heights items + 1
  | _ => 0

/-- How deeply tuples are nested in the values. -/
def heights : List Value → Nat
  | [] => 0
  | item :: items => max item.height (heights items)

end

theorem height_le_heights {item : Value} {items : List Value} (h : item ∈ items) :
    item.height ≤ heights items := by
  induction items with
  | nil => cases h
  | cons first items ih =>
      rw [heights]
      obtain rfl | hrest := List.mem_cons.mp h
      · exact Nat.le_max_left _ _
      · exact (ih hrest).trans (Nat.le_max_right _ _)

end Value

namespace Heap

variable {heap : Heap} {depth more : Nat} {a b : Value}

theorem agree_mono (h : heap.agree depth a b = .ok true) (hle : depth ≤ more) :
    heap.agree more a b = .ok true := by
  unfold agree at h ⊢
  split
  · rfl
  · rename_i hidentical
    rw [if_neg hidentical] at h
    exact equal_within_mono h hle

/-- Values without parts agree if they are equal; mutable ones are identical then. -/
theorem agree_of_atom_equal (h : a.atomEqual b = true) : heap.agree 1 a b = .ok true := by
  cases hidentical : a.isIdentical b with
  | true => exact if_pos hidentical
  | false =>
      refine agree_of_equal_within ?_
      unfold Value.atomEqual at h
      split at h
      case h_19 =>
        cases a with
        | bool | int | float | complex => cases b <;> exact congrArg Except.ok h
        | _ => cases h
      all_goals first | exact congrArg Except.ok h | cases h.symm.trans hidentical

theorem identical_of_same_nan (h : a.sameNaN b = true) : a.isIdentical b = true := by
  unfold Value.isIdentical
  split
  case h_7 => exact h
  all_goals cases h

/-- What is the same key agrees, at a depth that depends on the tuples in it only. -/
theorem agree_of_same_key (h : a.sameKey b = true) : heap.agree (a.height + 1) a b = .ok true := by
  induction a using Value.inductionOnParts generalizing b with
  | tuple mark xs ih =>
      obtain ⟨mark', ys, rfl, hys⟩ := (Value.same_key_tuple_iff mark xs b).mp h
      refine agree_of_equal_within ?_
      rw [equal_within_succ, Shape.compare_eq_true_iff]
      refine .tuple ?_
      rw [List.forall₂_iff_get] at hys ⊢
      refine ⟨hys.1, fun place hx hy => ?_⟩
      have hmem := List.get_mem xs ⟨place, hx⟩
      exact agree_mono (ih _ hmem (hys.2 place hx hy))
        (Nat.succ_le_succ (Value.height_le_heights hmem))
  | frozenset mark xs =>
      -- Members are compared as keys, however deeply they are nested.
      obtain ⟨mark', ys, rfl, hkeys⟩ := (Value.same_key_frozenset_iff mark xs b).mp h
      refine agree_of_equal_within ?_
      rw [equal_within_succ, Shape.compare_eq_true_iff]
      exact .members (Keys.same_set_iff.mpr hkeys)
  | atom a hatom =>
      rw [Value.same_key_atom_iff hatom, ← Value.atom_same_iff hatom, Bool.or_eq_true] at h
      obtain hequal | hnan := h
      · exact agree_mono (agree_of_atom_equal hequal) (Nat.le_add_left 1 _)
      · exact if_pos (identical_of_same_nan hnan)

/-- Possible keys are equal exactly if they are the same key, unless they are not numbers: what is
not a number is the same key as itself and not equal to itself. -/
theorem equals_iff_same_key (ha : a.isHashable = true) (hb : b.isHashable = true)
    (hfloating : a.isFloating = false) : heap.Equals a b ↔ a.sameKey b = true := by
  constructor
  · rintro ⟨depth, hequal⟩
    exact same_key_of_equal_within ha hb hequal
  · intro hsame
    have hdistinct : a.isIdentical b = false := by
      unfold Value.isIdentical
      split
      case h_7 => exact Value.not_same_nan hfloating
      all_goals cases ha
    have hagree : heap.agree (a.height + 1) a b = .ok true := agree_of_same_key hsame
    rw [agree, hdistinct] at hagree
    exact ⟨a.height + 1, hagree⟩

end Heap

/-! ## Keys in a row -/

namespace Keys

variable {keys others : List Value}

/-- Of pairwise different keys, those that are not there are added at the end. -/
theorem insert_all_eq (h : Proper others) :
    insertAll keys others = keys ++ others.filter fun other => !mem other keys := by
  induction others generalizing keys with
  | nil => exact (List.append_nil keys).symm
  | cons other others ih =>
      obtain ⟨hlater, hdistinct⟩ := List.pairwise_cons.mp h.distinct
      have hrest : Proper others :=
        ⟨fun key hkey => h.hashable key (List.mem_cons_of_mem _ hkey), hdistinct⟩
      refine (ih hrest : insertAll (insert keys other) others = _).trans ?_
      unfold insert
      split
      · rename_i hmem
        rw [List.filter_cons_of_neg (by simp [hmem])]
      · rename_i habsent
        rw [List.filter_cons_of_pos (by simp [habsent]), List.append_assoc]
        refine congrArg (keys ++ other :: ·) (List.filter_congr fun key hkey => ?_)
        simp [mem, hlater key hkey]

end Keys

/-! ## Entries -/

namespace Dict

variable [KnownClasses] {dict other : Dict} {key value : Value} {entry : Value × Value}
  {entries before rest : List (Value × Value)}

omit [KnownClasses] in
theorem mem_keys (hentries : dict.entries = before ++ entry :: rest) : entry.1 ∈ dict.keys :=
  List.mem_map_of_mem (hentries ▸ List.mem_append_right before List.mem_cons_self)

omit [KnownClasses] in
theorem insert_into_absent (h : ∀ entry ∈ entries, key.sameKey entry.1 = false) :
    insertInto key value entries = entries ++ [(key, value)] := by
  induction entries with
  | nil => rfl
  | cons entry entries ih =>
      obtain ⟨hentry, hrest⟩ := List.forall_mem_cons.mp h
      rw [insertInto, hentry, if_neg Bool.false_ne_true, ih hrest]
      rfl

omit [KnownClasses] in
theorem insert_into_present (h : ∀ entry ∈ before, key.sameKey entry.1 = false)
    (hsame : key.sameKey entry.1 = true) :
    insertInto key value (before ++ entry :: rest) = before ++ (entry.1, value) :: rest := by
  induction before with
  | nil => rw [List.nil_append, insertInto, if_pos hsame, List.nil_append]
  | cons first before ih =>
      obtain ⟨hfirst, hbefore⟩ := List.forall_mem_cons.mp h
      rw [List.cons_append, insertInto, hfirst, if_neg Bool.false_ne_true, ih hbefore]
      rfl

omit [KnownClasses] in
/-- What is found under a key is bound by the first entry whose key is the same. -/
theorem exists_split (h : dict.get? key = some value) :
    ∃ before entry rest, dict.entries = before ++ entry :: rest ∧ entry.2 = value ∧
      key.sameKey entry.1 = true ∧ ∀ earlier ∈ before, key.sameKey earlier.1 = false := by
  obtain ⟨entry, hfound, rfl⟩ := Option.map_eq_some_iff.mp h
  obtain ⟨hsame, before, rest, hentries, hbefore⟩ := List.find?_eq_some_iff_append.mp hfound
  refine ⟨before, entry, rest, hentries, rfl, hsame, fun earlier hearlier => ?_⟩
  simpa using hbefore earlier hearlier

omit [KnownClasses] in
theorem get_eq_none_iff :
    dict.get? key = none ↔ ∀ entry ∈ dict.entries, key.sameKey entry.1 = false := by
  unfold get?
  rw [Option.map_eq_none_iff, List.find?_eq_none]
  exact forall₂_congr fun _ _ => Iff.of_eq (Bool.not_eq_true _)

/-- The key of an entry is not bound by any other entry. -/
theorem Sound.alone (h : dict.Sound) (hkey : key.Sound)
    (hentries : dict.entries = before ++ entry :: rest) (hsame : key.sameKey entry.1 = true) :
    ∀ other ∈ before ++ rest, key.sameKey other.1 = false := by
  have hdistinct : dict.entries.Pairwise fun a b => b.1.sameKey a.1 = false :=
    List.pairwise_map.mp h.keys.distinct
  rw [hentries, List.pairwise_append, List.pairwise_cons] at hdistinct
  obtain ⟨-, ⟨hrest, -⟩, hbefore⟩ := hdistinct
  have hsound {other : Value × Value} (hother : other ∈ dict.entries) : other.1.Sound :=
    h.keys.sound _ (List.mem_map_of_mem hother)
  have hentry : entry.1.Sound := hsound (by simp [hentries])
  intro other hother
  by_contra hbound
  rw [Bool.not_eq_false] at hbound
  obtain hmem | hmem := List.mem_append.mp hother
  · have hback := Value.same_key_trans (Value.same_key_symm hkey hentry hsame) hbound
    rw [hbefore other hmem entry List.mem_cons_self] at hback
    cases hback
  · have hforth := Value.same_key_symm hkey (hsound (by simp [hentries, hmem])) hbound
    have hback := Value.same_key_trans hforth hsame
    rw [hrest other hmem] at hback
    cases hback

/-- Erasing a key takes out its entry. -/
theorem Sound.erase_split (h : dict.Sound) (hkey : key.Sound)
    (hentries : dict.entries = before ++ entry :: rest) (hsame : key.sameKey entry.1 = true) :
    (dict.erase key).entries = before ++ rest := by
  have halone := h.alone hkey hentries hsame
  show dict.entries.filter (fun entry => !key.sameKey entry.1) = _
  rw [hentries, List.filter_append, List.filter_cons_of_neg (by simp [hsame]),
    ← List.filter_append]
  exact List.filter_eq_self.mpr fun other hother => by rw [halone other hother]; rfl

/-! ## Looking up -/

theorem Sound.get_of_split (h : dict.Sound) (hkey : key.Sound)
    (hentries : dict.entries = before ++ entry :: rest) (hsame : key.sameKey entry.1 = true) :
    dict.get? key = some entry.2 :=
  (h.get_eq_some_iff hkey).mpr ⟨entry, by simp [hentries], hsame, rfl⟩

/-- Under a key that has been bound its new value is found, and under all others what was found
before. -/
theorem get_insert {bound : Value} (hkeys : ∀ entry ∈ dict.entries, entry.1.Sound)
    (hbound : bound.Sound) (hkey : key.Sound) :
    (dict.insert bound value).get? key =
      if key.sameKey bound = true then some value else dict.get? key := by
  obtain ⟨entries⟩ := dict
  unfold insert get?
  dsimp only at hkeys ⊢
  induction entries with
  | nil =>
      rw [insertInto, List.find?_singleton]
      split <;> rfl
  | cons entry entries ih =>
      obtain ⟨hentry, hrest⟩ := List.forall_mem_cons.mp hkeys
      unfold insertInto
      split
      · rename_i hsame
        have hiff : key.sameKey bound = true ↔ key.sameKey entry.1 = true :=
          ⟨fun h => Value.same_key_trans h hsame,
            fun h => Value.same_key_trans h (Value.same_key_symm hbound hentry hsame)⟩
        rw [List.find?_cons, List.find?_cons]
        cases hfirst : key.sameKey entry.1 with
        | true => rw [if_pos (hiff.mpr hfirst)]; rfl
        | false => rw [if_neg (mt hiff.mp (by simp [hfirst]))]
      · rename_i hother
        rw [List.find?_cons, List.find?_cons]
        cases hfirst : key.sameKey entry.1 with
        | true =>
            have hdiffers : ¬key.sameKey bound = true := fun h =>
              hother (Value.same_key_trans (Value.same_key_symm hkey hbound h) hfirst)
            rw [if_neg hdiffers]
        | false => exact ih hrest

theorem Sound.tail (h : Sound ⟨entry :: entries⟩) : Sound ⟨entries⟩ :=
  ⟨h.keys.sublist (List.sublist_cons_self _ _),
    fun other hother => h.values other (List.mem_cons_of_mem _ hother)⟩

/-- What is found after all the entries of another dictionary have been bound: what is found there,
or else what was found before. -/
theorem Sound.get_insert_all (h : dict.Sound) (hother : other.Sound) (hkey : key.Sound) :
    (dict.insertAll other).get? key = (other.get? key).or (dict.get? key) := by
  obtain ⟨entries⟩ := other
  induction entries generalizing dict with
  | nil => rfl
  | cons entry entries ih =>
      obtain ⟨hhashable, hbound⟩ := hother.keys.fit entry.1 List.mem_cons_self
      have hinsert := h.insert hhashable hbound (hother.values entry List.mem_cons_self)
      have hkeys : ∀ entry ∈ dict.entries, entry.1.Sound := fun entry hentry =>
        h.keys.sound _ (List.mem_map_of_mem hentry)
      have hstep := ih hinsert hother.tail
      rw [get_insert hkeys hbound hkey] at hstep
      refine hstep.trans ?_
      have hentries : (Dict.mk (entry :: entries)).entries = [] ++ entry :: entries := rfl
      cases hsame : key.sameKey entry.1 with
      | true =>
          have hnone : get? ⟨entries⟩ key = none :=
            get_eq_none_iff.mpr (hother.alone hkey hentries hsame)
          have hfirst : get? ⟨entry :: entries⟩ key = some entry.2 :=
            hother.get_of_split hkey hentries hsame
          rw [hnone, hfirst, if_pos rfl]
          rfl
      | false =>
          have hrest : get? ⟨entry :: entries⟩ key = get? ⟨entries⟩ key := by
            rw [get?, List.find?_cons_of_neg (by simp [hsame])]
            rfl
          rw [hrest, if_neg Bool.false_ne_true]

omit [KnownClasses] in
theorem keys_insert_all (dict other : Dict) :
    (dict.insertAll other).keys = Keys.insertAll dict.keys other.keys := by
  obtain ⟨entries⟩ := other
  induction entries generalizing dict with
  | nil => rfl
  | cons entry entries ih =>
      refine (ih (dict.insert entry.1 entry.2)).trans ?_
      exact congrArg (Keys.insertAll · _) (keys_insert_into entry.1 entry.2 dict.entries)

omit [KnownClasses] in
/-- The entries of a dictionary that shares no key are added at the end as they are. -/
theorem insert_all_new (hother : Keys.Proper other.keys)
    (hnew : ∀ entry ∈ other.entries, ∀ old ∈ dict.entries, entry.1.sameKey old.1 = false) :
    (dict.insertAll other).entries = dict.entries ++ other.entries := by
  obtain ⟨entries⟩ := other
  induction entries generalizing dict with
  | nil => exact (List.append_nil _).symm
  | cons entry entries ih =>
      obtain ⟨hentry, hnew⟩ := List.forall_mem_cons.mp hnew
      obtain ⟨hlater, hdistinct⟩ := List.pairwise_cons.mp hother.distinct
      have hrest : Keys.Proper (keys ⟨entries⟩) :=
        ⟨fun key hkey => hother.hashable key (List.mem_cons_of_mem _ hkey), hdistinct⟩
      have hinsert : (dict.insert entry.1 entry.2).entries = dict.entries ++ [entry] :=
        insert_into_absent hentry
      refine (ih hrest fun later hmem old hold => ?_).trans ?_
      · rw [hinsert] at hold
        obtain hold | hold := List.mem_append.mp hold
        · exact hnew later hmem old hold
        · rw [List.mem_singleton.mp hold]
          exact hlater _ (List.mem_map_of_mem hmem)
      · rw [hinsert, List.append_assoc]
        rfl

/-- Binding all the entries of a dictionary anew makes the same dictionary. -/
theorem Sound.insert_all_empty (h : dict.Sound) : Dict.empty.insertAll dict = dict := by
  have hentries : (Dict.empty.insertAll dict).entries = [] ++ dict.entries :=
    insert_all_new h.keys.toProper fun _ _ old hold => absurd hold List.not_mem_nil
  exact congrArg Dict.mk hentries

end Dict

end Script
