import Script.Eval.World
import Script.Operator.Apply
import Script.Proofs.Value.SameKey

/-!
# Sound heaps

A heap is sound if all its dictionaries and sets have pairwise different keys that can be keys,
and if the same holds of the frozen sets in all the values it holds. Every operation on keys,
dictionaries and tables keeps what it works on sound, given that new keys have been checked.
-/

namespace Script

variable [KnownClasses]

/-! ## Sets of keys -/

namespace Keys

/-- Pairwise different values that can be keys and are sound. -/
structure Sound (keys : List Value) : Prop extends Proper keys where
  sound : ∀ key ∈ keys, key.Sound

variable {keys others : List Value} {key : Value}

/-- Values that can be keys and are sound, whether or not they differ. -/
def Fit (keys : List Value) : Prop :=
  ∀ key ∈ keys, key.isHashable = true ∧ key.Sound

theorem Sound.fit (h : Sound keys) : Fit keys :=
  fun key hkey => ⟨h.hashable key hkey, h.sound key hkey⟩

theorem Sound.nil : Sound [] :=
  ⟨⟨nofun, .nil⟩, nofun⟩

theorem Sound.sublist (h : Sound keys) (hothers : others.Sublist keys) : Sound others :=
  ⟨⟨fun key hkey => h.hashable key (hothers.subset hkey), h.distinct.sublist hothers⟩,
    fun key hkey => h.sound key (hothers.subset hkey)⟩

/-- Keys after which others follow that are not among them. -/
theorem Sound.append (h : Sound keys) (hothers : Sound others)
    (hnew : ∀ other ∈ others, mem other keys = false) : Sound (keys ++ others) := by
  refine ⟨⟨?_, ?_⟩, ?_⟩
  · exact List.forall_mem_append.mpr ⟨h.hashable, hothers.hashable⟩
  · refine List.pairwise_append.mpr ⟨h.distinct, hothers.distinct, fun key hkey other hother => ?_⟩
    have habsent := hnew other hother
    rw [mem, List.any_eq_false] at habsent
    simpa using habsent key hkey
  · exact List.forall_mem_append.mpr ⟨h.sound, hothers.sound⟩

theorem Sound.singleton (hhashable : key.isHashable = true) (hkey : key.Sound) : Sound [key] :=
  ⟨⟨List.forall_mem_singleton.mpr hhashable, List.pairwise_singleton _ _⟩,
    List.forall_mem_singleton.mpr hkey⟩

theorem Sound.insert (h : Sound keys) (hhashable : key.isHashable = true) (hkey : key.Sound) :
    Sound (insert keys key) := by
  unfold Keys.insert
  split
  · exact h
  · rename_i habsent
    refine h.append (.singleton hhashable hkey) (List.forall_mem_singleton.mpr ?_)
    simpa using habsent

theorem Sound.insert_all (h : Sound keys) (hothers : Fit others) :
    Sound (insertAll keys others) := by
  unfold insertAll
  induction others generalizing keys with
  | nil => exact h
  | cons other others ih =>
      obtain ⟨hhashable, hother⟩ := hothers other List.mem_cons_self
      exact ih (h.insert hhashable hother) fun key hkey => hothers key (List.mem_cons_of_mem _ hkey)

theorem Fit.of_list (h : Fit keys) : Sound (ofList keys) :=
  Sound.nil.insert_all h

theorem Fit.filter (h : Fit keys) (test : Value → Bool) : Fit (keys.filter test) :=
  fun key hkey => h key (List.mem_of_mem_filter hkey)

theorem Sound.erase (h : Sound keys) (key : Value) : Sound (erase keys key) :=
  h.sublist List.filter_sublist

theorem Sound.inter (h : Sound keys) (others : List Value) : Sound (inter keys others) :=
  h.sublist List.filter_sublist

theorem Sound.diff (h : Sound keys) (others : List Value) : Sound (diff keys others) :=
  h.sublist List.filter_sublist

/-- The keys that only the second set has differ from all of the first. -/
theorem Sound.symm_diff (h : Sound keys) (hothers : Sound others) :
    Sound (symmDiff keys others) := by
  refine (h.diff others).append (hothers.diff keys) fun other hother => ?_
  have habsent : mem other keys = false := by
    simpa using (List.mem_filter.mp hother).2
  rw [mem, List.any_eq_false] at habsent ⊢
  exact fun key hkey => habsent key (List.mem_of_mem_filter hkey)

theorem Sound.shared (h : Sound keys) (hothers : Sound others) :
    Sound (Operand.sharedKeys keys others) := by
  unfold Operand.sharedKeys
  split
  · exact h.inter others
  · exact hothers.inter keys

end Keys

/-! ## Dictionaries and tables -/

namespace Dict

/-- The keys are sound, and so are the values. -/
structure Sound (dict : Dict) : Prop where
  keys : Keys.Sound dict.keys
  values : ∀ entry ∈ dict.entries, entry.2.Sound

variable {dict other : Dict} {key value : Value}

theorem Sound.empty : Dict.empty.Sound :=
  ⟨.nil, nofun⟩

omit [KnownClasses] in
/-- Binding a key keeps the keys, or adds the key at the end. -/
theorem keys_insert_into (key value : Value) (entries : List (Value × Value)) :
    (insertInto key value entries).map (·.1) =
      Keys.insert (entries.map (·.1)) key := by
  induction entries with
  | nil => rfl
  | cons entry entries ih =>
      unfold insertInto
      by_cases hsame : key.sameKey entry.1 = true
      · simp [Keys.insert, Keys.mem, hsame]
      · rw [if_neg hsame, List.map_cons, ih, List.map_cons]
        unfold Keys.insert Keys.mem
        rw [List.any_cons, Bool.eq_false_of_not_eq_true hsame, Bool.false_or]
        split
        · rfl
        · rfl

omit [KnownClasses] in
theorem mem_insert_into {entry : Value × Value} {entries : List (Value × Value)}
    (h : entry ∈ insertInto key value entries) : entry.2 = value ∨ entry ∈ entries := by
  induction entries with
  | nil =>
      rw [insertInto, List.mem_singleton] at h
      exact .inl (h ▸ rfl)
  | cons first entries ih =>
      unfold insertInto at h
      split at h
      · obtain rfl | hrest := List.mem_cons.mp h
        · exact .inl rfl
        · exact .inr (List.mem_cons_of_mem _ hrest)
      · obtain rfl | hrest := List.mem_cons.mp h
        · exact .inr List.mem_cons_self
        · exact (ih hrest).imp_right (List.mem_cons_of_mem _)

theorem Sound.insert (h : dict.Sound) (hhashable : key.isHashable = true) (hkey : key.Sound)
    (hvalue : value.Sound) : (dict.insert key value).Sound := by
  refine ⟨?_, fun entry hentry => ?_⟩
  · show Keys.Sound ((insertInto key value dict.entries).map (·.1))
    rw [keys_insert_into]
    exact h.keys.insert hhashable hkey
  · obtain heq | hold := mem_insert_into hentry
    · exact heq ▸ hvalue
    · exact h.values entry hold

theorem Sound.insert_all (h : dict.Sound) (hother : other.Sound) :
    (dict.insertAll other).Sound := by
  have hfit : ∀ entry ∈ other.entries,
      entry.1.isHashable = true ∧ entry.1.Sound ∧ entry.2.Sound := by
    intro entry hentry
    obtain ⟨hhashable, hkey⟩ := hother.keys.fit entry.1 (List.mem_map_of_mem hentry)
    exact ⟨hhashable, hkey, hother.values entry hentry⟩
  unfold insertAll
  generalize other.entries = entries at hfit
  induction entries generalizing dict with
  | nil => exact h
  | cons entry entries ih =>
      obtain ⟨hhashable, hkey, hvalue⟩ := hfit entry List.mem_cons_self
      exact ih (h.insert hhashable hkey hvalue) fun next hnext =>
        hfit next (List.mem_cons_of_mem _ hnext)

theorem Sound.erase (h : dict.Sound) (key : Value) : (dict.erase key).Sound :=
  ⟨h.keys.sublist (List.filter_sublist.map _),
    fun entry hentry => h.values entry (List.mem_of_mem_filter hentry)⟩

theorem Sound.get (h : dict.Sound) (hfound : dict.get? key = some value) : value.Sound := by
  obtain ⟨entry, hentry, rfl⟩ := Option.map_eq_some_iff.mp hfound
  exact h.values entry (List.mem_of_find?_eq_some hentry)

end Dict

namespace Table

/-- All entries are sound. -/
def Sound (table : Table Value) : Prop :=
  ∀ pair ∈ table.entries, pair.2.Sound

variable {table other : Table Value} {name : String} {value : Value}

theorem Sound.empty : (Table.empty : Table Value).Sound :=
  nofun

theorem Sound.get (h : table.Sound) (hfound : table.get? name = some value) : value.Sound := by
  obtain ⟨before, after, hentries, -⟩ := List.lookup_eq_some_iff.mp hfound
  exact h (name, value) (hentries ▸ by simp)

theorem Sound.insert (h : table.Sound) (name : String) (hvalue : value.Sound) :
    (table.insert name value).Sound := by
  obtain ⟨entries⟩ := table
  show ∀ pair ∈ insertInto name value entries, pair.2.Sound
  induction entries with
  | nil => exact List.forall_mem_singleton.mpr hvalue
  | cons pair entries ih =>
      obtain ⟨hpair, hrest⟩ := List.forall_mem_cons.mp h
      unfold insertInto
      split
      · exact List.forall_mem_cons.mpr ⟨hvalue, hrest⟩
      · exact List.forall_mem_cons.mpr ⟨hpair, ih hrest⟩

theorem Sound.insert_all (h : table.Sound) (hother : other.Sound) :
    (table.insertAll other).Sound := by
  obtain ⟨entries⟩ := other
  unfold insertAll
  induction entries generalizing table with
  | nil => exact h
  | cons pair entries ih =>
      obtain ⟨hpair, hrest⟩ := List.forall_mem_cons.mp hother
      exact ih (h.insert pair.1 hpair) hrest

theorem Sound.of_list {pairs : List (String × Value)} (h : ∀ pair ∈ pairs, pair.2.Sound) :
    (Table.ofList pairs).Sound :=
  Sound.empty.insert_all h

end Table

/-! ## Heaps -/

namespace Store

variable {α : Type} [Inhabited α] {good : α → Prop} {store : Store α}

omit [KnownClasses] in
/-- What holds of all objects holds of them with a new one for which it holds. -/
theorem forall_push (h : ∀ id, good (store.get id)) {contents : α} (hnew : good contents)
    (id : Nat) : good ((store.push contents).get id) := by
  rw [get_push]
  split
  · exact hnew
  · exact h id

omit [KnownClasses] in
/-- What a change keeps holds of all objects after the change. -/
theorem forall_modify (h : ∀ id, good (store.get id)) {change : α → α}
    (hchange : ∀ contents, good contents → good (change contents)) (changed id : Nat) :
    good ((store.modify changed change).get id) := by
  by_cases hexists : changed < store.next
  · rw [get_modify _ _ _ _ hexists]
    split
    · exact hchange _ (h changed)
    · exact h id
  · rw [get_modify_of_le _ _ _ _ (not_lt.mp hexists)]
    exact h id

end Store

/-- All items are sound. -/
def ItemsSound (items : Array Value) : Prop :=
  ∀ item ∈ items, item.Sound

namespace ItemsSound

variable {items others : Array Value} {value : Value}

theorem empty : ItemsSound #[] :=
  fun _ h => absurd h (Array.not_mem_empty _)

theorem of_list {items : List Value} (h : ∀ item ∈ items, item.Sound) : ItemsSound items.toArray :=
  fun item hitem => h item (List.mem_toArray.mp hitem)

/-- The item at a place, or null. -/
theorem getD (h : ItemsSound items) (place : Nat) : (items.getD place .null).Sound := by
  rw [Array.getD_eq_getD_getElem?]
  cases hitem : items[place]? with
  | none => trivial
  | some item => exact h item (Array.mem_of_getElem? hitem)

theorem push (h : ItemsSound items) (hvalue : value.Sound) : ItemsSound (items.push value) := by
  intro item hitem
  obtain hitem | rfl := Array.mem_push.mp hitem
  · exact h item hitem
  · exact hvalue

theorem append (h : ItemsSound items) (hothers : ItemsSound others) :
    ItemsSound (items ++ others) := by
  intro item hitem
  obtain hitem | hitem := Array.mem_append.mp hitem
  · exact h item hitem
  · exact hothers item hitem

theorem erase_place (h : ItemsSound items) (place : Nat) :
    ItemsSound (items.eraseIdxIfInBounds place) := by
  unfold Array.eraseIdxIfInBounds
  split
  · exact fun item hitem => h item (Array.mem_of_mem_eraseIdx hitem)
  · exact h

theorem insert_place (h : ItemsSound items) (place : Nat) (hvalue : value.Sound) :
    ItemsSound (items.insertIdxIfInBounds place value) := by
  unfold Array.insertIdxIfInBounds
  split
  · intro item hitem
    obtain rfl | hitem := Array.mem_insertIdx.mp hitem
    · exact hvalue
    · exact h item hitem
  · exact h

theorem set_place (h : ItemsSound items) (place : Nat) (hvalue : value.Sound) :
    ItemsSound (items.setIfInBounds place value) := by
  intro item hitem
  obtain hitem | rfl := Array.mem_or_eq_of_mem_setIfInBounds hitem
  · exact h item hitem
  · exact hvalue

end ItemsSound

/-- All fields are sound. -/
def Instance.Sound (contents : Instance) : Prop :=
  contents.fields.Sound

/-- All defaults of fields are sound. -/
def ClassDef.Sound (definition : ClassDef) : Prop :=
  definition.fields.Sound

/-- All dictionaries and sets are sound, and so are the values that the heap holds. -/
structure Heap.Sound (heap : Heap) : Prop where
  list : ∀ id, ItemsSound (heap.list id)
  dict : ∀ id, (heap.dict id).Sound
  set : ∀ id, Keys.Sound (heap.set id)
  instanceOf : ∀ id, (heap.instanceOf id).Sound
  classDef : ∀ id, (heap.classDef id).Sound

namespace Heap.Sound

variable {heap : Heap}

theorem empty (maxDepth : Nat) : (Heap.empty maxDepth).Sound :=
  ⟨fun _ => nofun, fun _ => .empty, fun _ => .nil, fun _ => .empty, fun _ => .empty⟩

theorem push_list (h : heap.Sound) {items : Array Value} (hitems : ItemsSound items) :
    Heap.Sound { heap with lists := heap.lists.push items } :=
  { h with list := Store.forall_push h.list hitems }

theorem modify_list (h : heap.Sound) (id : ListId) {change : Array Value → Array Value}
    (hchange : ∀ items, ItemsSound items → ItemsSound (change items)) :
    Heap.Sound { heap with lists := heap.lists.modify id change } :=
  { h with list := Store.forall_modify h.list hchange id }

theorem push_dict (h : heap.Sound) {dict : Dict} (hdict : dict.Sound) :
    Heap.Sound { heap with dicts := heap.dicts.push dict } :=
  { h with dict := Store.forall_push h.dict hdict }

theorem modify_dict (h : heap.Sound) (id : DictId) {change : Dict → Dict}
    (hchange : ∀ dict, dict.Sound → (change dict).Sound) :
    Heap.Sound { heap with dicts := heap.dicts.modify id change } :=
  { h with dict := Store.forall_modify h.dict hchange id }

theorem push_set (h : heap.Sound) {keys : List Value} (hkeys : Keys.Sound keys) :
    Heap.Sound { heap with sets := heap.sets.push keys } :=
  { h with set := Store.forall_push h.set hkeys }

theorem modify_set (h : heap.Sound) (id : SetId) {change : List Value → List Value}
    (hchange : ∀ keys, Keys.Sound keys → Keys.Sound (change keys)) :
    Heap.Sound { heap with sets := heap.sets.modify id change } :=
  { h with set := Store.forall_modify h.set hchange id }

theorem push_instance (h : heap.Sound) {contents : Instance} (hcontents : contents.Sound) :
    Heap.Sound { heap with instances := heap.instances.push contents } :=
  { h with instanceOf := Store.forall_push h.instanceOf hcontents }

theorem modify_instance (h : heap.Sound) (id : InstanceId) {change : Instance → Instance}
    (hchange : ∀ contents, contents.Sound → (change contents).Sound) :
    Heap.Sound { heap with instances := heap.instances.modify id change } :=
  { h with instanceOf := Store.forall_modify h.instanceOf hchange id }

theorem push_class (h : heap.Sound) {definition : ClassDef} (hdefinition : definition.Sound) :
    Heap.Sound { heap with classes := heap.classes.push definition } :=
  { h with classDef := Store.forall_push h.classDef hdefinition }

/-- The default of a field, wherever it is inherited from. -/
theorem find_field (h : heap.Sound) {id : ClassId} {name : String} {value : Value}
    (hfound : heap.findField? id name = some value) : value.Sound := by
  obtain ⟨ancestor, -, hfield⟩ := List.exists_of_findSome?_eq_some hfound
  exact Table.Sound.get (h.classDef ancestor) hfield

/-- All defaults of a class and of those that it inherits from. -/
theorem field_defaults (h : heap.Sound) (id : ClassId) : (heap.fieldDefaults id).Sound := by
  unfold fieldDefaults
  generalize (heap.lineage id).reverse = ancestors
  have hmerged : ∀ merged : Table Value, merged.Sound →
      (ancestors.foldl (fun merged ancestor => merged.insertAll (heap.classDef ancestor).fields)
        merged).Sound := by
    induction ancestors with
    | nil => exact fun merged hmerged => hmerged
    | cons ancestor ancestors ih =>
        exact fun merged hmerged => ih _ (hmerged.insert_all (h.classDef ancestor))
  exact hmerged _ .empty

end Heap.Sound

/-- All bindings are sound. -/
def Scope.Sound (scope : Scope) : Prop :=
  scope.bindings.Sound

/-- The scope and the heap are sound. -/
structure EvalState.Sound (state : EvalState) : Prop where
  scope : state.scope.Sound
  heap : state.world.heap.Sound

end Script
