import Mathlib.Algebra.Order.Group.Nat
import Mathlib.Data.List.Nodup
import Script.Heap

/-!
# Classes and instances

A heap is well shaped if each class is derived from an older one, or from none, and declares each of
its fields once, and if every instance of a struct has the fields that the struct declares
(`Heap.Shaped`). Then the classes that a class inherits from are those that following the bases
leads to, each of them once (`Heap.Shaped.base_chain_lineage`, `Heap.Shaped.nodup_lineage`), and
being a subclass is a partial order. New classes and instances keep the heap well shaped if they are
made as the language makes them, and so do fields that are set.
-/

namespace Script

/-! ## Names in tables -/

namespace Table

variable {α : Type}

theorem contains_iff (table : Table α) (name : String) :
    table.contains name = true ↔ name ∈ table.names := by
  obtain ⟨entries⟩ := table
  show (entries.lookup name).isSome = true ↔ name ∈ entries.map (·.1)
  induction entries with
  | nil => simp
  | cons pair entries ih =>
      rw [List.lookup_cons, List.map_cons, List.mem_cons, ← ih]
      by_cases hsame : name = pair.1
      · simp [hsame]
      · rw [beq_eq_false_iff_ne.mpr hsame]
        simp [hsame]

/-- Binding a name keeps the names, or adds the name at the end. -/
theorem names_insert (table : Table α) (name : String) (entry : α) :
    (table.insert name entry).names =
      if name ∈ table.names then table.names else table.names ++ [name] := by
  obtain ⟨entries⟩ := table
  show (insertInto name entry entries).map (·.1) =
    if name ∈ entries.map (·.1) then entries.map (·.1) else entries.map (·.1) ++ [name]
  induction entries with
  | nil => rfl
  | cons pair entries ih =>
      unfold insertInto
      by_cases hsame : name = pair.1
      · simp [hsame]
      · simp only [beq_iff_eq, hsame, if_false, List.map_cons, ih, List.mem_cons, false_or]
        split <;> rfl

theorem names_insert_of_mem {table : Table α} {name : String} (h : name ∈ table.names)
    (entry : α) : (table.insert name entry).names = table.names := by
  rw [names_insert, if_pos h]

theorem prefix_names_insert (table : Table α) (name : String) (entry : α) :
    table.names <+: (table.insert name entry).names := by
  rw [names_insert]
  split
  · exact List.prefix_rfl
  · exact List.prefix_append _ _

theorem nodup_names_insert {table : Table α} (h : table.names.Nodup) (name : String) (entry : α) :
    (table.insert name entry).names.Nodup := by
  rw [names_insert]
  split
  · exact h
  · rename_i hnew
    exact List.nodup_append_comm.mp (List.nodup_cons.mpr ⟨hnew, h⟩)

theorem nodup_names_insert_all {table : Table α} (h : table.names.Nodup) (other : Table α) :
    (table.insertAll other).names.Nodup := by
  obtain ⟨entries⟩ := other
  unfold insertAll
  induction entries generalizing table with
  | nil => exact h
  | cons pair entries ih => exact ih (nodup_names_insert h pair.1 pair.2)

/-- New names that differ are added in their order. -/
theorem names_insert_all {table other : Table α} (h : (table.names ++ other.names).Nodup) :
    (table.insertAll other).names = table.names ++ other.names := by
  obtain ⟨entries⟩ := other
  unfold insertAll
  induction entries generalizing table with
  | nil => exact (List.append_nil _).symm
  | cons pair entries ih =>
      have hshape : table.names ++ (Table.mk (pair :: entries)).names =
          (table.names ++ [pair.1]) ++ (Table.mk entries).names := List.append_cons _ _ _
      have hnew : pair.1 ∉ table.names := by
        rw [hshape] at h
        exact fun hmem => (List.nodup_append.mp (List.nodup_append.mp h).1).2.2 _ hmem _
          (List.mem_singleton_self _) rfl
      have hnames : (table.insert pair.1 pair.2).names = table.names ++ [pair.1] := by
        rw [names_insert, if_neg hnew]
      rw [hshape, ← hnames] at h ⊢
      exact ih h

theorem names_empty_insert_all {table : Table α} (h : table.names.Nodup) :
    (Table.empty.insertAll table).names = table.names :=
  names_insert_all h

theorem names_of_list {pairs : List (String × α)} (h : (pairs.map (·.1)).Nodup) :
    (Table.ofList pairs).names = pairs.map (·.1) :=
  names_insert_all h

theorem nodup_names_of_list (pairs : List (String × α)) : (Table.ofList pairs).names.Nodup :=
  have hempty : (empty : Table α).names.Nodup := List.nodup_nil
  nodup_names_insert_all hempty _

/-- Of two tables that are put together, the second has the say on the names that it has. -/
theorem get?_insert_all {other : Table α} (h : other.names.Nodup) (table : Table α)
    (name : String) :
    (table.insertAll other).get? name = (other.get? name).or (table.get? name) := by
  obtain ⟨entries⟩ := other
  induction entries generalizing table with
  | nil => rfl
  | cons pair entries ih =>
      obtain ⟨hnew, hrest⟩ := List.nodup_cons.mp h
      have hlater : (table.insertAll ⟨pair :: entries⟩).get? name =
          ((⟨entries⟩ : Table α).get? name).or ((table.insert pair.1 pair.2).get? name) :=
        ih _ hrest
      rw [hlater, get?_insert]
      show _ = ((pair :: entries).lookup name).or (table.get? name)
      rw [List.lookup_cons]
      by_cases hsame : name = pair.1
      · -- No later entry binds the name again.
        subst hsame
        have hnone : (⟨entries⟩ : Table α).get? pair.1 = none :=
          Option.not_isSome_iff_eq_none.mp fun hbound =>
            hnew ((contains_iff ⟨entries⟩ pair.1).mp hbound)
        rw [hnone, if_pos rfl, beq_self_eq_true]
        rfl
      · rw [if_neg hsame, beq_eq_false_iff_ne.mpr hsame]
        rfl

end Table

/-! ## Stores that grow -/

namespace Store

variable {α : Type} [Inhabited α]

/-- The second store has the objects of the first, with the same contents, and may have more. -/
structure Grows (store after : Store α) : Prop where
  next_le : store.next ≤ after.next
  get_eq {id : Nat} : id < store.next → after.get id = store.get id

variable {store middle after : Store α}

theorem Grows.refl (store : Store α) : store.Grows store :=
  ⟨le_rfl, fun _ => rfl⟩

theorem Grows.trans (h : store.Grows middle) (h' : middle.Grows after) : store.Grows after :=
  ⟨h.next_le.trans h'.next_le,
    fun hid => (h'.get_eq (hid.trans_le h.next_le)).trans (h.get_eq hid)⟩

theorem get_push_of_lt {id : Nat} (h : id < store.next) (contents : α) :
    (store.push contents).get id = store.get id := by
  rw [get_push, if_neg h.ne]

theorem get_push_next (store : Store α) (contents : α) :
    (store.push contents).get store.next = contents := by
  rw [get_push, if_pos rfl]

theorem get_of_le {id : Nat} (h : store.next ≤ id) : store.get id = default := by
  simp only [next] at h
  simp [get, Array.getD_eq_getD_getElem?, Array.getElem?_eq_none h]

/-- What relates the contents of an object before and after a change relates those of every
object. -/
theorem modify_rel (related : α → α → Prop) (hrefl : ∀ contents, related contents contents)
    {change : α → α} (hchange : ∀ contents, related contents (change contents)) (store : Store α)
    (changed id : Nat) : related (store.get id) ((store.modify changed change).get id) := by
  by_cases hexists : changed < store.next
  · rw [get_modify _ _ _ _ hexists]
    split
    · rename_i heq
      exact heq ▸ hchange _
    · exact hrefl _
  · rw [get_modify_of_le _ _ _ _ (not_lt.mp hexists)]
    exact hrefl _

theorem grows_push (store : Store α) (contents : α) : store.Grows (store.push contents) :=
  ⟨by simp, fun hid => get_push_of_lt hid contents⟩

end Store

/-! ## Well shaped heaps -/

namespace Heap

/-- Following the bases leads from the first class to the second. -/
inductive Derives (heap : Heap) : ClassId → ClassId → Prop where
  | self (id : ClassId) : Derives heap id id
  | base {id base ancestor : ClassId} :
      (heap.classDef id).base = some base → Derives heap base ancestor → Derives heap id ancestor

/-- The classes that following the bases leads to from a class, up to one that has no base. -/
inductive BaseChain (heap : Heap) : ClassId → List ClassId → Prop where
  | last {id : ClassId} (h : (heap.classDef id).base = none) : BaseChain heap id [id]
  | next {id base : ClassId} {rest : List ClassId} (h : (heap.classDef id).base = some base)
      (hrest : BaseChain heap base rest) : BaseChain heap id (id :: rest)

/-- Classes are derived from older ones and declare each field once, and the instances of structs
have the fields of these. -/
structure Shaped (heap : Heap) : Prop where
  /-- The base of a class is an older class, and neither is a struct or an enumeration. -/
  base {id base : ClassId} (h : (heap.classDef id).base = some base) :
    base < id ∧ (heap.classDef base).kind = .regular ∧ (heap.classDef id).kind = .regular
  /-- A class declares each of its fields once. -/
  nodup (id : ClassId) : (heap.classDef id).fields.names.Nodup
  /-- The class of an instance exists. -/
  owner {id : InstanceId} (h : id < heap.instances.next) :
    (heap.instanceOf id).classId < heap.classes.next
  /-- An instance of a struct has the fields of the struct, in the order of their declaration. -/
  fields {id : InstanceId} (h : id < heap.instances.next)
    (hstruct : (heap.classOf id).kind = .struct) :
    (heap.instanceOf id).fields.names = (heap.classOf id).fields.names

variable {heap : Heap} {id base ancestor : ClassId}

theorem Derives.trans {id middle ancestor : ClassId} (h : heap.Derives id middle)
    (h' : heap.Derives middle ancestor) : heap.Derives id ancestor := by
  induction h with
  | self => exact h'
  | base hbase _ ih => exact .base hbase (ih h')

/-! ### What depends on the classes only -/

section Congr

variable {after : Heap} (h : after.classes = heap.classes)
include h

theorem lineage_congr (id : ClassId) : after.lineage id = heap.lineage id := by
  have hclass (id : ClassId) : after.classDef id = heap.classDef id := congrArg (·.get id) h
  have hfrom (steps : Nat) (id : ClassId) :
      after.lineageFrom steps id = heap.lineageFrom steps id := by
    induction steps generalizing id with
    | zero => rfl
    | succ steps ih =>
        unfold lineageFrom
        simp only [hclass, ih]
  exact hfrom id id

theorem find_method_congr (id : ClassId) (name : String) :
    after.findMethod? id name = heap.findMethod? id name := by
  unfold findMethod? classDef
  rw [lineage_congr h, h]

theorem find_field_congr (id : ClassId) (name : String) :
    after.findField? id name = heap.findField? id name := by
  unfold findField? classDef
  rw [lineage_congr h, h]

theorem field_defaults_congr (id : ClassId) :
    after.fieldDefaults id = heap.fieldDefaults id := by
  unfold fieldDefaults classDef
  rw [lineage_congr h, h]

end Congr

namespace Shaped

variable (h : heap.Shaped)
include h

/-- What a class is derived from is not younger. -/
theorem le_of_derives (hderives : heap.Derives id ancestor) : ancestor ≤ id := by
  induction hderives with
  | self => exact le_rfl
  | base hbase _ ih => exact ih.trans (h.base hbase).1.le

/-- Following the bases never comes back to a class. -/
theorem not_derives_of_base (hbase : (heap.classDef id).base = some base) :
    ¬heap.Derives base id :=
  fun hderives => ((h.base hbase).1.trans_le (h.le_of_derives hderives)).false

theorem derives_antisymm (hderives : heap.Derives id ancestor)
    (hback : heap.Derives ancestor id) : id = ancestor :=
  le_antisymm (h.le_of_derives hback) (h.le_of_derives hderives)

/-- The number of a class is enough steps to follow its bases to the end. -/
theorem lineage_from_eq {steps : Nat} (hsteps : id ≤ steps) :
    heap.lineageFrom steps id = heap.lineage id := by
  have hsame : ∀ id steps steps', id ≤ steps → id ≤ steps' →
      heap.lineageFrom steps id = heap.lineageFrom steps' id := by
    intro id
    induction id using Nat.strong_induction_on with
    | h id ih =>
        intro steps steps' hsteps hsteps'
        cases hbase : (heap.classDef id).base with
        | none => cases steps <;> cases steps' <;> simp [lineageFrom, hbase]
        | some base =>
            have hlt := (h.base hbase).1
            obtain ⟨steps, rfl⟩ := Nat.exists_eq_add_one.mpr (hlt.pos.trans_le hsteps)
            obtain ⟨steps', rfl⟩ := Nat.exists_eq_add_one.mpr (hlt.pos.trans_le hsteps')
            simp only [lineageFrom, hbase]
            rw [ih base hlt steps steps' (Nat.lt_add_one_iff.mp (hlt.trans_le hsteps))
              (Nat.lt_add_one_iff.mp (hlt.trans_le hsteps'))]
  exact hsame id steps id hsteps le_rfl

omit h in
theorem lineage_of_none (hbase : (heap.classDef id).base = none) : heap.lineage id = [id] := by
  unfold lineage
  cases id with
  | zero => rfl
  | succ id => simp [lineageFrom, hbase]

theorem lineage_of_base (hbase : (heap.classDef id).base = some base) :
    heap.lineage id = id :: heap.lineage base := by
  have hlt := (h.base hbase).1
  obtain ⟨steps, rfl⟩ := Nat.exists_eq_add_one.mpr hlt.pos
  rw [← h.lineage_from_eq (Nat.lt_add_one_iff.mp hlt)]
  show heap.lineageFrom (steps + 1) (steps + 1) = _
  simp [lineageFrom, hbase]

/-- What holds of a class if it holds of its base holds of all classes. -/
theorem induction_on_base {motive : ClassId → Prop} (id : ClassId)
    (none : ∀ id, (heap.classDef id).base = none → motive id)
    (base : ∀ id base, (heap.classDef id).base = some base → motive base → motive id) :
    motive id := by
  induction id using Nat.strong_induction_on with
  | h id ih =>
      cases hbase : (heap.classDef id).base with
      | none => exact none id hbase
      | some other => exact base id other hbase (ih other (h.base hbase).1)

/-- The lineage of a class has all that following the bases leads to. -/
theorem mem_lineage_iff : ancestor ∈ heap.lineage id ↔ heap.Derives id ancestor := by
  induction id using h.induction_on_base with
  | none id hbase =>
      rw [lineage_of_none hbase, List.mem_singleton]
      refine ⟨?_, fun hderives => ?_⟩
      · rintro rfl
        exact .self _
      · cases hderives with
        | self => rfl
        | base hsome => cases hbase.symm.trans hsome
  | base id base hbase ih =>
      rw [h.lineage_of_base hbase, List.mem_cons, ih]
      refine ⟨?_, fun hderives => ?_⟩
      · rintro (rfl | hderives)
        · exact .self _
        · exact .base hbase hderives
      · cases hderives with
        | self => exact .inl rfl
        | base hbase' hderives =>
            cases hbase.symm.trans hbase'
            exact .inr hderives

theorem nodup_lineage (id : ClassId) : (heap.lineage id).Nodup := by
  induction id using h.induction_on_base with
  | none id hbase =>
      rw [lineage_of_none hbase]
      exact List.nodup_singleton id
  | base id base hbase ih =>
      rw [h.lineage_of_base hbase]
      refine List.nodup_cons.mpr ⟨fun hmem => ?_, ih⟩
      exact h.not_derives_of_base hbase (h.mem_lineage_iff.mp hmem)

/-- The lineage of a class is the whole chain of its bases. -/
theorem base_chain_lineage (id : ClassId) : heap.BaseChain id (heap.lineage id) := by
  induction id using h.induction_on_base with
  | none id hbase =>
      rw [lineage_of_none hbase]
      exact .last hbase
  | base id base hbase ih =>
      rw [h.lineage_of_base hbase]
      exact .next hbase ih

theorem is_subclass_iff : heap.isSubclass id ancestor = true ↔ heap.Derives id ancestor := by
  unfold isSubclass
  rw [List.contains_iff_mem, h.mem_lineage_iff]

/-- The fields that an instance of a struct has in the beginning. -/
theorem names_field_defaults (hstruct : (heap.classDef id).kind = .struct) :
    (heap.fieldDefaults id).names = (heap.classDef id).fields.names := by
  have hbase : (heap.classDef id).base = none := by
    cases hbase : (heap.classDef id).base with
    | none => rfl
    | some base => cases hstruct.symm.trans (h.base hbase).2.2
  unfold fieldDefaults
  rw [lineage_of_none hbase]
  exact Table.names_empty_insert_all (h.nodup id)

/-- Of the classes in a row, the first that declares a field has the say on its default, whether the
row is searched from the front or the fields are put together from the back. -/
theorem get_put_together (row : List ClassId) (name : String) :
    (row.reverse.foldl (fun merged ancestor =>
        merged.insertAll (heap.classDef ancestor).fields) Table.empty).get? name =
      row.findSome? fun ancestor => (heap.classDef ancestor).fields.get? name := by
  rw [List.foldl_reverse]
  induction row with
  | nil => rfl
  | cons id row ih =>
      rw [List.foldr_cons, Table.get?_insert_all (h.nodup id), ih, List.findSome?_cons]
      cases (heap.classDef id).fields.get? name <;> rfl

/-- The default that the search for a field finds is the one in the table of all fields. -/
theorem get_field_defaults (id : ClassId) (name : String) :
    (heap.fieldDefaults id).get? name = heap.findField? id name :=
  h.get_put_together (heap.lineage id) name

omit h in
theorem empty (maxDepth : Nat) : (Heap.empty maxDepth).Shaped where
  base h := nomatch h
  nodup _ := List.nodup_nil
  owner h := (Nat.not_lt_zero _ h).elim
  fields h := (Nat.not_lt_zero _ h).elim

/-- Whether a heap is well shaped depends on its classes and instances only. -/
theorem congr {after : Heap} (hclasses : after.classes = heap.classes)
    (hinstances : after.instances = heap.instances) : after.Shaped := by
  have hclass (id : ClassId) : after.classDef id = heap.classDef id :=
    congrArg (·.get id) hclasses
  have hinstance (id : InstanceId) : after.instanceOf id = heap.instanceOf id :=
    congrArg (·.get id) hinstances
  have hclassOf (id : InstanceId) : after.classOf id = heap.classOf id := by
    unfold classOf
    rw [hinstance, hclass]
  constructor
  · intro id base hbase
    rw [hclass] at hbase ⊢
    rw [hclass]
    exact h.base hbase
  · intro id
    rw [hclass]
    exact h.nodup id
  · intro id hid
    rw [hinstances] at hid
    rw [hinstance, hclasses]
    exact h.owner hid
  · intro id hid hstruct
    rw [hinstances] at hid
    rw [hclassOf] at hstruct ⊢
    rw [hinstance]
    exact h.fields hid hstruct

/-- A new class, derived from an older one that is no struct or enumeration, or from none. -/
theorem push_class {definition : ClassDef}
    (hbase : ∀ base, definition.base = some base → base < heap.classes.next ∧
      (heap.classDef base).kind = .regular ∧ definition.kind = .regular)
    (hnodup : definition.fields.names.Nodup) :
    Shaped { heap with classes := heap.classes.push definition } := by
  let after : Heap := { heap with classes := heap.classes.push definition }
  have hnew (id : ClassId) :
      after.classDef id = if id = heap.classes.next then definition else heap.classDef id :=
    heap.classes.get_push definition id
  have hold {id : ClassId} (hid : id < heap.classes.next) : after.classDef id = heap.classDef id :=
    Store.get_push_of_lt hid definition
  have hclassOf {id : InstanceId} (hid : id < heap.instances.next) :
      after.classOf id = heap.classOf id :=
    hold (h.owner hid)
  constructor
  · intro id base hsome
    have hlink : base < id ∧ base < heap.classes.next ∧ (heap.classDef base).kind = .regular ∧
        (after.classDef id).kind = .regular := by
      change (after.classDef id).base = some base at hsome
      rw [hnew] at hsome ⊢
      split at hsome
      · rename_i heq
        obtain ⟨hlt, hregular⟩ := hbase base hsome
        rw [if_pos heq]
        exact ⟨heq ▸ hlt, hlt, hregular⟩
      · rename_i hne
        obtain ⟨hlt, hregular⟩ := h.base hsome
        rw [if_neg hne]
        have hid : id < heap.classes.next := by
          by_contra hout
          have hdefault : heap.classDef id = default := Store.get_of_le (not_lt.mp hout)
          rw [hdefault] at hsome
          cases hsome
        exact ⟨hlt, hlt.trans hid, hregular⟩
    obtain ⟨hlt, hexists, hregular⟩ := hlink
    exact ⟨hlt, (congrArg ClassDef.kind (hold hexists)).trans hregular.1, hregular.2⟩
  · intro id
    show (after.classDef id).fields.names.Nodup
    rw [hnew]
    split
    · exact hnodup
    · exact h.nodup id
  · exact fun hid => (h.owner hid).trans_le (Store.grows_push heap.classes definition).next_le
  · intro id hid hstruct
    change (after.classOf id).kind = .struct at hstruct
    show (heap.instanceOf id).fields.names = (after.classOf id).fields.names
    rw [hclassOf hid] at hstruct ⊢
    exact h.fields hid hstruct

/-- A new instance of a class that exists. -/
theorem push_instance {contents : Instance} (howner : contents.classId < heap.classes.next)
    (hfields : (heap.classDef contents.classId).kind = .struct →
      contents.fields.names = (heap.classDef contents.classId).fields.names) :
    Shaped { heap with instances := heap.instances.push contents } := by
  let after : Heap := { heap with instances := heap.instances.push contents }
  have hinstance (id : InstanceId) (hid : id < after.instances.next) :
      after.instanceOf id = contents ∨
        id < heap.instances.next ∧ after.instanceOf id = heap.instanceOf id := by
    obtain hlt | heq := Nat.lt_succ_iff_lt_or_eq.mp (hid.trans_eq (Store.next_push _ _))
    · exact .inr ⟨hlt, Store.get_push_of_lt hlt contents⟩
    · exact .inl (heq ▸ Store.get_push_next heap.instances contents)
  refine ⟨h.base, h.nodup, ?_, ?_⟩
  · intro id hid
    show (after.instanceOf id).classId < heap.classes.next
    obtain heq | ⟨hlt, heq⟩ := hinstance id hid
    · exact heq ▸ howner
    · exact heq ▸ h.owner hlt
  · intro id hid hstruct
    change (heap.classDef (after.instanceOf id).classId).kind = .struct at hstruct
    show (after.instanceOf id).fields.names =
      (heap.classDef (after.instanceOf id).classId).fields.names
    obtain heq | ⟨hlt, heq⟩ := hinstance id hid
    · rw [heq] at hstruct ⊢
      exact hfields hstruct
    · rw [heq] at hstruct ⊢
      exact h.fields hlt hstruct

/-- A field that is set; of a struct, one that it declares. -/
theorem set_field {changed : InstanceId} {name : String}
    (hfield : (heap.classOf changed).kind = .struct →
      (heap.classOf changed).fields.contains name = true) (value : Value) :
    Shaped { heap with
      instances := heap.instances.modify changed fun contents =>
        { contents with fields := contents.fields.insert name value } } := by
  let after : Heap := { heap with
    instances := heap.instances.modify changed fun contents =>
      { contents with fields := contents.fields.insert name value } }
  have hchange {id : InstanceId} (hid : id < heap.instances.next) :
      (after.instanceOf id).classId = (heap.instanceOf id).classId ∧
        ((after.instanceOf id).fields.names = (heap.instanceOf id).fields.names ∨
          id = changed ∧ (after.instanceOf id).fields =
            (heap.instanceOf id).fields.insert name value) := by
    by_cases hexists : changed < heap.instances.next
    · have hget : after.instanceOf id = if id = changed then
          { heap.instanceOf changed with
            fields := (heap.instanceOf changed).fields.insert name value }
          else heap.instanceOf id :=
        Store.get_modify _ _ _ _ hexists
      rw [hget]
      split
      · rename_i heq
        exact ⟨heq ▸ rfl, .inr ⟨heq, heq ▸ rfl⟩⟩
      · exact ⟨rfl, .inl rfl⟩
    · have hget : after.instanceOf id = heap.instanceOf id :=
        Store.get_modify_of_le _ _ _ _ (not_lt.mp hexists)
      rw [hget]
      exact ⟨rfl, .inl rfl⟩
  refine ⟨h.base, h.nodup, ?_, ?_⟩
  · intro id hid
    rw [Store.next_modify] at hid
    show (after.instanceOf id).classId < heap.classes.next
    rw [(hchange hid).1]
    exact h.owner hid
  · intro id hid hstruct
    rw [Store.next_modify] at hid
    obtain ⟨howner, hnames⟩ := hchange hid
    have hclassOf : after.classOf id = heap.classOf id := congrArg heap.classDef howner
    change (after.classOf id).kind = .struct at hstruct
    show (after.instanceOf id).fields.names = (after.classOf id).fields.names
    rw [hclassOf] at hstruct ⊢
    rw [← h.fields hid hstruct]
    obtain hsame | ⟨rfl, hinsert⟩ := hnames
    · exact hsame
    · rw [hinsert]
      refine Table.names_insert_of_mem ?_ value
      rw [h.fields hid hstruct, ← Table.contains_iff]
      exact hfield hstruct

end Shaped

/-! ## What is kept -/

/-- The second heap has the classes of the first, unchanged, and its instances, each of the same
class and with all the fields that it had. -/
structure Extends (heap after : Heap) : Prop where
  classes : heap.classes.Grows after.classes
  instances_le : heap.instances.next ≤ after.instances.next
  owner {id : InstanceId} (h : id < heap.instances.next) :
    (after.instanceOf id).classId = (heap.instanceOf id).classId
  fields {id : InstanceId} (h : id < heap.instances.next) :
    (heap.instanceOf id).fields.names <+: (after.instanceOf id).fields.names

namespace Extends

variable {middle after : Heap}

theorem refl (heap : Heap) : heap.Extends heap :=
  ⟨.refl _, le_rfl, fun _ => rfl, fun _ => List.prefix_rfl⟩

theorem trans (h : heap.Extends middle) (h' : middle.Extends after) : heap.Extends after where
  classes := h.classes.trans h'.classes
  instances_le := h.instances_le.trans h'.instances_le
  owner hid := (h'.owner (hid.trans_le h.instances_le)).trans (h.owner hid)
  fields hid := (h.fields hid).trans (h'.fields (hid.trans_le h.instances_le))

theorem of_eq (hclasses : after.classes = heap.classes)
    (hinstances : after.instances = heap.instances) : heap.Extends after := by
  have hinstance (id : InstanceId) : after.instanceOf id = heap.instanceOf id :=
    congrArg (·.get id) hinstances
  refine ⟨hclasses ▸ .refl _, hinstances ▸ le_rfl, fun _ => ?_, fun _ => ?_⟩
  · exact congrArg Instance.classId (hinstance _)
  · exact hinstance _ ▸ List.prefix_rfl

theorem push_class (heap : Heap) (definition : ClassDef) :
    heap.Extends { heap with classes := heap.classes.push definition } :=
  ⟨Store.grows_push _ _, le_rfl, fun _ => rfl, fun _ => List.prefix_rfl⟩

theorem push_instance (heap : Heap) (contents : Instance) :
    heap.Extends { heap with instances := heap.instances.push contents } := by
  have hgrows := Store.grows_push heap.instances contents
  refine ⟨.refl _, hgrows.next_le, fun hid => ?_, fun hid => ?_⟩
  · exact congrArg Instance.classId (hgrows.get_eq hid)
  · have hsame := congrArg (·.fields.names) (hgrows.get_eq hid)
    exact hsame ▸ List.prefix_rfl

theorem set_field (heap : Heap) (id : InstanceId) (name : String) (value : Value) :
    heap.Extends { heap with
      instances := heap.instances.modify id fun contents =>
        { contents with fields := contents.fields.insert name value } } := by
  let kept (before after : Instance) : Prop :=
    after.classId = before.classId ∧ before.fields.names <+: after.fields.names
  let change (contents : Instance) : Instance :=
    { contents with fields := contents.fields.insert name value }
  have hchange (contents : Instance) : kept contents (change contents) :=
    ⟨rfl, contents.fields.prefix_names_insert name value⟩
  have hkept := heap.instances.modify_rel kept (fun _ => ⟨rfl, List.prefix_rfl⟩) hchange id
  exact ⟨.refl _, (Store.next_modify _ _ _).ge, fun _ => (hkept _).1, fun _ => (hkept _).2⟩

end Extends

end Heap

end Script
