import Mathlib.Data.Set.Finite.Lattice
import Mathlib.Logic.Relation
import Mathlib.Order.WellFounded
import Script.Proofs.Heap.Classes
import Script.Proofs.Heap.Faults
import Script.Proofs.Value.SameKey

/-!
# How deep values are nested

Values are compared by what they are made of: their shape (`Heap.shape`), in which the mutable and
the immutable form of a collection look the same. The parts of a shape are values again, and a value
is acyclic if no way from part to part leads back to where it came from. The heap is finite, so an
acyclic value is nested to some depth only (`Heap.Acyclic.exists_nests`), and comparing it within
that depth has an answer (`Heap.exists_equal_within`).
-/

namespace Script

/-- What a value is compared by. -/
inductive Shape where
  | list (items : List Value)
  | tuple (items : List Value)
  | dict (entries : Dict)
  | error (kind : ErrorKind) (arguments : List String)
  | members (keys : List Value)
  | bytes (contents : List UInt8)
  | atom (value : Value)

/-- The objects of one sort hold only finitely many values. -/
theorem Store.finite_values {α : Type} [Inhabited α] (store : Store α) (values : α → List Value)
    (hdefault : values default = []) : {value | ∃ id, value ∈ values (store.get id)}.Finite := by
  have hstored : (⋃ id ∈ {id | id < store.next}, {value | value ∈ values (store.get id)}).Finite :=
    (Set.finite_lt_nat store.next).biUnion fun id _ => (values (store.get id)).finite_toSet
  refine hstored.subset ?_
  rintro value ⟨id, hvalue⟩
  refine Set.mem_biUnion ?_ hvalue
  by_contra hid
  rw [store.get_of_le (Nat.le_of_not_lt hid), hdefault] at hvalue
  cases hvalue

namespace Shape

/-- The values that a shape is made of. -/
def parts : Shape → List Value
  | .list items | .tuple items => items
  | .dict entries => entries.keys ++ entries.values
  | .members keys => keys
  | .error _ _ | .bytes _ | .atom _ => []

/-- Whether two shapes are alike, for parts that are compared in some way. -/
def compare (agree : Value → Value → Except Fault Bool) : Shape → Shape → Except Fault Bool
  | .list xs, .list ys => if xs.length ≠ ys.length then .ok false else Heap.allAgree agree xs ys
  | .tuple xs, .tuple ys => Heap.allAgree agree xs ys
  | .dict x, .dict y =>
    if x.size ≠ y.size then .ok false else Heap.entriesAgree agree y x.entries
  | .error kind arguments, .error other others =>
    .ok (kind == other && arguments == others)
  | .members keys, .members others => .ok (Keys.sameSet keys others)
  | .bytes contents, .bytes others => .ok (contents == others)
  | .atom a, .atom b => .ok (a.atomEqual b)
  | _, _ => .ok false

end Shape

namespace Heap

open Relation

/-- The shape of a value. -/
def shape (heap : Heap) : Value → Shape
  | .list id => .list (heap.list id).toList
  | .tuple _ items => .tuple items
  | .dict id => .dict (heap.dict id)
  | .error id => .error (heap.error id).kind (heap.error id).arguments
  | .set id => .members (heap.set id)
  | .frozenset _ keys => .members keys
  | .bytes contents => .bytes contents
  | .bytearray id => .bytes (heap.bytearray id)
  | value => .atom value

/-- Whether two parts agree: they are the same object, or they are equal. -/
def agree (heap : Heap) (depth : Nat) (a b : Value) : Except Fault Bool :=
  if a.isIdentical b then .ok true else heap.equalWithin depth a b

/-- Values are compared by their shapes. -/
theorem equal_within_succ (heap : Heap) (depth : Nat) (a b : Value) :
    heap.equalWithin (depth + 1) a b =
      (heap.shape a).compare (heap.agree depth) (heap.shape b) := by
  cases a <;> cases b <;> rfl

/-! ## Comparisons that have an answer -/

section Agree

variable {agree : Value → Value → Except Fault Bool}

/-- A comparison of parts that goes on only if they agree. -/
theorem exists_of_next {x y : Value} {next : Except Fault Bool} (h : ∃ same, agree x y = .ok same)
    (hnext : ∃ result, next = .ok result) :
    ∃ result, (do if ← agree x y then next else return false) = Except.ok result := by
  obtain ⟨same, hsame⟩ := h
  rw [hsame]
  cases same with
  | false => exact ⟨false, rfl⟩
  | true => exact hnext

theorem exists_all_agree {xs ys : List Value}
    (h : ∀ x ∈ xs, ∀ y ∈ ys, ∃ result, agree x y = .ok result) :
    ∃ result, allAgree agree xs ys = .ok result := by
  induction xs generalizing ys with
  | nil => exact ⟨_, rfl⟩
  | cons x xs ih =>
      cases ys with
      | nil => exact ⟨_, rfl⟩
      | cons y ys =>
          refine exists_of_next (h x List.mem_cons_self y List.mem_cons_self) (ih ?_)
          exact fun x hx y hy => h x (List.mem_cons_of_mem _ hx) y (List.mem_cons_of_mem _ hy)

theorem exists_entries_agree {other : Dict} {entries : List (Value × Value)}
    (h : ∀ entry ∈ entries, ∀ value ∈ other.values, ∃ result, agree value entry.2 = .ok result) :
    ∃ result, entriesAgree agree other entries = .ok result := by
  induction entries with
  | nil => exact ⟨_, rfl⟩
  | cons entry entries ih =>
      have hrest := ih fun entry hentry => h entry (List.mem_cons_of_mem _ hentry)
      unfold entriesAgree
      split
      · exact ⟨_, rfl⟩
      · rename_i value hfound
        obtain ⟨found, hmem, rfl⟩ := Option.map_eq_some_iff.mp hfound
        have hvalue : found.2 ∈ other.values :=
          List.mem_map_of_mem (List.mem_of_find?_eq_some hmem)
        exact exists_of_next (h entry List.mem_cons_self _ hvalue) hrest

/-- Shapes can be compared if their parts can. -/
theorem exists_compare {s t : Shape}
    (h : ∀ x ∈ s.parts, ∀ y ∈ t.parts,
      (∃ result, agree x y = .ok result) ∧ ∃ result, agree y x = .ok result) :
    ∃ result, s.compare agree t = .ok result := by
  unfold Shape.compare
  split
  · split
    · exact ⟨_, rfl⟩
    · exact exists_all_agree fun x hx y hy => (h x hx y hy).1
  · exact exists_all_agree fun x hx y hy => (h x hx y hy).1
  · split
    · exact ⟨_, rfl⟩
    · refine exists_entries_agree fun entry hentry value hvalue => ?_
      exact (h _ (List.mem_append_right _ (List.mem_map_of_mem hentry)) _
        (List.mem_append_right _ hvalue)).2
  all_goals exact ⟨_, rfl⟩

end Agree

/-! ## Ways that end -/

section Ends

variable {next : Value → Value → Prop} {steps more : Nat} {value : Value}

/-- Every way along a relation ends after fewer steps. -/
def EndsWithin (next : Value → Value → Prop) : Nat → Value → Prop
  | 0, _ => False
  | steps + 1, value => ∀ part, next value part → EndsWithin next steps part

theorem EndsWithin.mono (h : EndsWithin next steps value) (hle : steps ≤ more) :
    EndsWithin next more value := by
  induction steps generalizing more value with
  | zero => exact h.elim
  | succ steps ih =>
      obtain ⟨more, rfl⟩ := Nat.exists_eq_add_one.mpr (Nat.zero_lt_of_lt hle)
      exact fun part hpart => ih (h part hpart) (Nat.le_of_succ_le_succ hle)

/-- What is reached from a value has ways that are no longer. -/
theorem EndsWithin.reached {part : Value} (h : EndsWithin next steps value)
    (hpart : ReflTransGen next value part) : EndsWithin next steps part := by
  induction hpart with
  | refl => exact h
  | tail _ hlast ih =>
      cases steps with
      | zero => exact ih.elim
      | succ steps => exact (ih _ hlast).mono (Nat.le_succ steps)

/-- A value all of whose ways end does not lead into a cycle. -/
theorem EndsWithin.acyclic {part : Value} (h : EndsWithin next steps value)
    (hpart : ReflTransGen next value part) : ¬TransGen next part part := by
  replace h := h.reached hpart
  clear hpart
  induction steps generalizing part with
  | zero => exact h.elim
  | succ steps ih =>
      intro hcycle
      obtain ⟨inner, hinner, hback⟩ := TransGen.head'_iff.mp hcycle
      exact ih ((h inner hinner).reached hback) hcycle

/-- If only finitely many values are reached and none of them lies on a cycle, all ways end. -/
theorem exists_ends_within (hfinite : {part | ReflTransGen next value part}.Finite)
    (hacyclic : ∀ part, ReflTransGen next value part → ¬TransGen next part part) :
    ∃ steps, EndsWithin next steps value := by
  let Reached := {part // ReflTransGen next value part}
  have : Finite Reached := hfinite
  let Below (part whole : Reached) : Prop := TransGen next whole.1 part.1
  have : IsTrans Reached Below := ⟨fun _ _ _ hfirst hsecond => hsecond.trans hfirst⟩
  have : Std.Irrefl Below := ⟨fun part hcycle => hacyclic part.1 part.2 hcycle⟩
  have hbelow : WellFounded Below := Finite.wellFounded_of_trans_of_irrefl Below
  suffices hall : ∀ part : Reached, ∃ steps, EndsWithin next steps part.1 from
    hall ⟨value, .refl⟩
  intro part
  induction part using hbelow.induction with
  | _ part ih =>
      let Next := {inner : Reached // next part.1 inner.1}
      have hinner (inner : Next) : ∃ steps, EndsWithin next steps inner.1.1 :=
        ih inner.1 (.single inner.2)
      choose steps hsteps using hinner
      obtain ⟨most, hmost⟩ := (Set.finite_range steps).bddAbove
      refine ⟨most + 1, fun inner hnext => ?_⟩
      let step : Next := ⟨⟨inner, part.2.tail hnext⟩, hnext⟩
      exact (hsteps step).mono (hmost (Set.mem_range_self step))

end Ends

/-! ## Nesting -/

/-- The values that a value is compared by: items, keys and what is bound to them, members. -/
def parts (heap : Heap) (value : Value) : List Value :=
  (heap.shape value).parts

/-- The second value is a part of the first. -/
def HasPart (heap : Heap) (whole part : Value) : Prop :=
  part ∈ heap.parts whole

/-- No way from part to part leads from the value into a cycle. -/
def Acyclic (heap : Heap) (value : Value) : Prop :=
  ∀ part, ReflTransGen heap.HasPart value part → ¬TransGen heap.HasPart part part

/-- Every way from part to part ends after fewer steps. -/
def NestsWithin (heap : Heap) : Nat → Value → Prop
  | 0, _ => False
  | depth + 1, value => ∀ part ∈ heap.parts value, heap.NestsWithin depth part

variable {heap : Heap} {depth more : Nat} {a b value : Value} {result : Bool}

theorem nests_within_iff_ends :
    heap.NestsWithin depth value ↔ EndsWithin heap.HasPart depth value := by
  induction depth generalizing value with
  | zero => exact Iff.rfl
  | succ depth ih => exact forall_congr' fun part => imp_congr_right fun _ => ih

theorem NestsWithin.mono (h : heap.NestsWithin depth value) (hle : depth ≤ more) :
    heap.NestsWithin more value :=
  nests_within_iff_ends.mpr ((nests_within_iff_ends.mp h).mono hle)

/-- What is reached from part to part is nested no more deeply. -/
theorem NestsWithin.reached {part : Value} (h : heap.NestsWithin depth value)
    (hpart : ReflTransGen heap.HasPart value part) : heap.NestsWithin depth part :=
  nests_within_iff_ends.mpr ((nests_within_iff_ends.mp h).reached hpart)

/-- If one of two values is nested within some depth, their comparison within that depth has an
answer. -/
theorem exists_equal_within (h : heap.NestsWithin depth a ∨ heap.NestsWithin depth b) :
    ∃ result, heap.equalWithin depth a b = .ok result := by
  induction depth generalizing a b with
  | zero => exact (h.elim id id).elim
  | succ depth ih =>
      rw [equal_within_succ]
      have hagree {x y : Value} (h : heap.NestsWithin depth x ∨ heap.NestsWithin depth y) :
          ∃ result, heap.agree depth x y = .ok result := by
        unfold agree
        split
        · exact ⟨true, rfl⟩
        · exact ih h
      refine exists_compare fun x hx y hy => ?_
      rcases h with ha | hb
      · exact ⟨hagree (.inl (ha x hx)), hagree (.inr (ha x hx))⟩
      · exact ⟨hagree (.inr (hb y hy)), hagree (.inl (hb y hy))⟩

/-! ## Acyclic values -/

/-- The value lies inside the other, in tuples and frozen sets. -/
inductive Inside (part : Value) : Value → Prop where
  | self : Inside part part
  | tuple {mark : Nat} {items : List Value} {item : Value} :
      item ∈ items → Inside part item → Inside part (.tuple mark items)
  | frozenset {mark : Nat} {keys : List Value} {key : Value} :
      key ∈ keys → Inside part key → Inside part (.frozenset mark keys)

theorem Inside.trans {first second third : Value} (h : Inside first second)
    (h' : Inside second third) : Inside first third := by
  induction h' with
  | self => exact h
  | tuple hitem _ ih => exact .tuple hitem ih
  | frozenset hkey _ ih => exact .frozenset hkey ih

/-- There are only finitely many values inside a value. -/
theorem finite_inside (value : Value) : {part | Inside part value}.Finite := by
  induction value using Value.inductionOnParts with
  | tuple mark items ih =>
      have hitems : (⋃ item ∈ {item | item ∈ items}, {part | Inside part item}).Finite :=
        items.finite_toSet.biUnion ih
      refine (hitems.insert (.tuple mark items)).subset fun part hpart => ?_
      cases hpart with
      | self => exact .inl rfl
      | tuple hitem hpart => exact .inr (Set.mem_biUnion hitem hpart)
  | frozenset mark keys ih =>
      have hkeys : (⋃ key ∈ {key | key ∈ keys}, {part | Inside part key}).Finite :=
        keys.finite_toSet.biUnion ih
      refine (hkeys.insert (.frozenset mark keys)).subset fun part hpart => ?_
      cases hpart with
      | self => exact .inl rfl
      | frozenset hkey hpart => exact .inr (Set.mem_biUnion hkey hpart)
  | atom value hatom =>
      refine (Set.finite_singleton value).subset fun part hpart => ?_
      cases hpart with
      | self => rfl
      | tuple | frozenset => cases hatom

/-- The values that lists, dictionaries and sets hold. -/
inductive Stored (heap : Heap) : Value → Prop where
  | item {id : ListId} {value : Value} (h : value ∈ (heap.list id).toList) : Stored heap value
  | entry {id : DictId} {value : Value} (h : value ∈ (heap.dict id).keys ++ (heap.dict id).values) :
      Stored heap value
  | member {id : SetId} {value : Value} (h : value ∈ heap.set id) : Stored heap value

theorem finite_stored (heap : Heap) : {value | heap.Stored value}.Finite := by
  have hitems := heap.lists.finite_values Array.toList rfl
  have hentries := heap.dicts.finite_values (fun dict => dict.keys ++ dict.values) rfl
  have hmembers := heap.sets.finite_values id rfl
  refine ((hitems.union hentries).union hmembers).subset ?_
  intro value hvalue
  cases hvalue with
  | item h => exact .inl (.inl ⟨_, h⟩)
  | entry h => exact .inl (.inr ⟨_, h⟩)
  | member h => exact .inr ⟨_, h⟩

/-- If each step leads to a value inside the one before, or to one of finitely many, then only
finitely many values are reached. -/
theorem finite_reached_along {next : Value → Value → Prop} {kept : Set Value} (hkept : kept.Finite)
    (hnext : ∀ whole part, next whole part → Inside part whole ∨ part ∈ kept) (value : Value) :
    {part | ReflTransGen next value part}.Finite := by
  have hwholes : (insert value kept).Finite := hkept.insert value
  refine (hwholes.biUnion fun whole _ => finite_inside whole).subset fun part hpart => ?_
  induction hpart with
  | refl => exact Set.mem_biUnion (Set.mem_insert value kept) .self
  | @tail middle part _ hpart ih =>
      obtain ⟨whole, hwhole, hinside⟩ := Set.mem_iUnion₂.mp ih
      obtain hdeeper | hstored := hnext middle part hpart
      · exact Set.mem_biUnion hwhole (hdeeper.trans hinside)
      · exact Set.mem_biUnion (Set.mem_insert_of_mem value hstored) .self

/-- A part lies inside the value, or is stored. -/
theorem HasPart.cases {whole part : Value} (h : heap.HasPart whole part) :
    Inside part whole ∨ heap.Stored part := by
  cases whole with
  | list id => exact .inr (.item h)
  | tuple mark items => exact .inl (.tuple h .self)
  | dict id => exact .inr (.entry h)
  | set id => exact .inr (.member h)
  | frozenset mark keys => exact .inl (.frozenset h .self)
  | _ => cases h

/-- From a value only finitely many values are reached from part to part. -/
theorem finite_reached (heap : Heap) (value : Value) :
    {part | ReflTransGen heap.HasPart value part}.Finite :=
  finite_reached_along heap.finite_stored (fun _ _ => HasPart.cases) value

/-- An acyclic value is nested to some depth only. -/
theorem Acyclic.exists_nests (h : heap.Acyclic value) : ∃ depth, heap.NestsWithin depth value :=
  (exists_ends_within (heap.finite_reached value) h).imp fun _ => nests_within_iff_ends.mpr

/-- A value that is nested to some depth only is acyclic. -/
theorem NestsWithin.acyclic (h : heap.NestsWithin depth value) : heap.Acyclic value :=
  fun _ hpart => (nests_within_iff_ends.mp h).acyclic hpart

end Heap

end Script
