import Script.Proofs.Eval.FrozenNames
import Script.Proofs.Eval.Parallel

/-!
# Keys in every state

In every state that occurs, the keys of each dictionary and the members of each set and frozen set
can be keys, and no two of them are equal in the language. Sound states stay sound between programs
and wherever a program evaluates an expression; `Consults.sound` is the step for the latter, since a
rule that is run on sound states asks for the evaluation of its parts in sound states only.
-/

namespace Script

attribute [local instance] KnownClasses.all

namespace Value

/-- The value, and what lies inside it if it is a tuple, through any number of tuples. -/
inductive InTuples (part : Value) : Value → Prop where
  | self : InTuples part part
  | item {mark : Nat} {items : List Value} {item : Value} :
      item ∈ items → InTuples part item → InTuples part (.tuple mark items)

/-- A value that can be a key is no mutable object, and holds none in tuples. -/
theorem not_mutable_of_hashable {part whole : Value} (h : part.InTuples whole)
    (hwhole : whole.isHashable = true) : part.isMutable = false := by
  induction h with
  | self =>
      cases part with
      | list | dict | set | bytearray | object | error => cases hwhole
      | _ => rfl
  | item hitem _ ih =>
      rw [isHashable, Heap.hashable_items_iff] at hwhole
      exact ih (hwhole _ hitem)

/-- The values that a value is made of, itself included. -/
inductive Within (part : Value) : Value → Prop where
  | self : Within part part
  | tuple {mark : Nat} {items : List Value} {item : Value} :
      item ∈ items → Within part item → Within part (.tuple mark items)
  | frozenset {mark : Nat} {keys : List Value} {key : Value} :
      key ∈ keys → Within part key → Within part (.frozenset mark keys)
  | builtinMethod {mark : Nat} {object : Value} {method : String} :
      Within part object → Within part (.builtinMethod mark object method)

/-- All that a sound value is made of is sound. -/
theorem Sound.within {part whole : Value} (h : part.Within whole) (hwhole : whole.Sound) :
    part.Sound := by
  induction h with
  | self => exact hwhole
  | tuple hitem _ ih => exact ih ((sound_tuple_iff _ _).mp hwhole _ hitem)
  | frozenset hkey _ ih => exact ih (((sound_frozenset_iff _ _).mp hwhole).2 _ hkey)
  | builtinMethod _ ih => exact ih hwhole

end Value

/-- All the values can be keys, so that no mutable object is among them or inside their tuples,
and no two of them are equal in the language, whichever is compared with the other. -/
structure Heap.ProperKeys (heap : Heap) (keys : List Value) : Prop where
  hashable : ∀ key ∈ keys, key.isHashable = true
  immutable : ∀ key ∈ keys, ∀ part : Value, part.InTuples key → part.isMutable = false
  different : keys.Pairwise fun first second =>
    heap.equal first second ≠ .ok true ∧ heap.equal second first ≠ .ok true

/-- Keys that differ as keys are not equal in the language. -/
theorem Keys.Sound.proper {keys : List Value} (h : Keys.Sound keys) (heap : Heap) :
    heap.ProperKeys keys := by
  refine ⟨h.hashable, ?_, ?_⟩
  · exact fun key hkey part hpart => Value.not_mutable_of_hashable hpart (h.hashable key hkey)
  · refine h.distinct.imp_of_mem fun {first second} hfirst hsecond hdiffers => ⟨?_, ?_⟩
    · intro hequal
      have hsame := Heap.same_key_of_equal (h.hashable _ hfirst) (h.hashable _ hsecond) hequal
      rw [Value.same_key_symm (h.sound _ hfirst) (h.sound _ hsecond) hsame] at hdiffers
      cases hdiffers
    · intro hequal
      have hsame := Heap.same_key_of_equal (h.hashable _ hsecond) (h.hashable _ hfirst) hequal
      rw [hsame] at hdiffers
      cases hdiffers

/-- A frozen set inside a sound value. -/
theorem Value.Sound.proper_keys {mark : Nat} {keys : List Value} {whole : Value}
    (hwhole : whole.Sound) (h : (Value.frozenset mark keys).Within whole) (heap : Heap) :
    heap.ProperKeys keys := by
  obtain ⟨hproper, hkeys⟩ := (sound_frozenset_iff mark keys).mp (hwhole.within h)
  exact Keys.Sound.proper ⟨hproper, hkeys⟩ heap

namespace EvalState

/-- The values that a state holds in its scope and its heap, and those they are made of. -/
inductive Holds (state : EvalState) : Value → Prop where
  | bound {name : String} {value : Value} : state.scope.get? name = some value → Holds state value
  | listItem {id : ListId} {value : Value} : value ∈ state.world.heap.list id → Holds state value
  | dictKey {id : DictId} {key : Value} :
      key ∈ (state.world.heap.dict id).keys → Holds state key
  | dictValue {id : DictId} {value : Value} :
      value ∈ (state.world.heap.dict id).values → Holds state value
  | setMember {id : SetId} {key : Value} : key ∈ state.world.heap.set id → Holds state key
  | field {id : InstanceId} {name : String} {value : Value} :
      (state.world.heap.instanceOf id).fields.get? name = some value → Holds state value
  | fieldDefault {id : ClassId} {name : String} {value : Value} :
      (state.world.heap.classDef id).fields.get? name = some value → Holds state value
  | part {whole part : Value} : Holds state whole → part.Within whole → Holds state part

/-- A sound state holds sound values only. -/
theorem Sound.holds {state : EvalState} (h : state.Sound) {value : Value}
    (hvalue : state.Holds value) : value.Sound := by
  induction hvalue with
  | bound hbound => exact Table.Sound.get h.scope hbound
  | listItem hitem => exact h.heap.list _ _ hitem
  | dictKey hkey => exact (h.heap.dict _).keys.sound _ hkey
  | dictValue hvalue =>
      obtain ⟨entry, hentry, rfl⟩ := List.mem_map.mp hvalue
      exact (h.heap.dict _).values entry hentry
  | setMember hkey => exact (h.heap.set _).sound _ hkey
  | field hfield => exact Table.Sound.get (h.heap.instanceOf _) hfield
  | fieldDefault hfield => exact Table.Sound.get (h.heap.classDef _) hfield
  | part _ hpart ih => exact ih.within hpart

end EvalState

namespace Eval

variable {fuel : Nat} {expr part : Expr} {state inner : EvalState}

/-- An evaluation that begins in a sound state ends in one, with a sound value. -/
theorem evaluate_sound (hstate : state.Sound) (fuel : Nat) (expr : Expr) {value : Value}
    {after : EvalState} (h : evaluate fuel expr state = (.ok value, after)) : value.Sound := by
  have hends : Ends True Value.Sound (evaluate fuel expr state) (evaluate fuel expr state) :=
    parallel_evaluate fuel expr state state (.refl fun _ => hstate)
  rw [h] at hends
  cases hends with
  | ok hvalue _ => exact hvalue trivial

/-- In a sound state, parts are evaluated in sound states only. -/
theorem Consults.sound (h : Consults fuel expr state part inner) (hstate : state.Sound) :
    inner.Sound := by
  -- An evaluation that differs only in states that are not sound comes to the same.
  by_contra hunsound
  obtain ⟨other, hother, hdiffers⟩ := h
  have hparallel (asked : Expr) :
      Parallel True Value.Sound (evaluate fuel asked) (other asked) := by
    intro sound current halike
    obtain rfl := halike.eq
    have hne : current ≠ inner := fun heq => hunsound (heq ▸ halike.sound)
    rw [hother asked current (.inr hne)]
    exact parallel_evaluate fuel asked current current halike
  exact hdiffers (parallel_step hparallel fuel expr state state (.refl fun _ => hstate)).eq

/-- A program that is started in a sound state evaluates expressions in sound states only. -/
theorem Visits.sound (h : Visits fuel expr state inner) (hstate : state.Sound) : inner.Sound := by
  induction h with
  | here => exact hstate
  | inside hconsults _ ih => exact ih (hconsults.sound hstate)

end Eval

/-- The state between programs is sound. -/
theorem Interpreter.Reachable.sound {interpreter : Interpreter} (h : interpreter.Reachable) :
    interpreter.state.Sound := by
  induction h with
  | fresh maxDepth console => exact ⟨.empty, .empty maxDepth⟩
  | log event _ ih => exact ⟨ih.scope, ih.heap⟩
  | throwNew kind arguments _ ih =>
      exact ⟨ih.scope, (Action.keeps_new_error kind arguments _ ih.heap _ _ rfl).2⟩
  | @runProgram interpreter fuel program _ ih =>
      rw [Interpreter.state_run_program]
      have hstarted : interpreter.started.Sound := ⟨ih.scope, ih.heap⟩
      exact (Interpreter.parallel_program fuel program _ _ (.refl fun _ => hstarted)).sound

/-- Every state that occurs is sound. -/
theorem EvalState.Occurs.sound {state : EvalState} (h : state.Occurs) : state.Sound := by
  cases h with
  | between hreachable => exact hreachable.sound
  | during hreachable hvisits => exact hvisits.sound ⟨hreachable.sound.scope, hreachable.sound.heap⟩

/-- In every state that occurs, the keys of every dictionary, the members of every set and those of
every frozen set that the state holds can be keys and are pairwise different under `==`; and so are
the members of the frozen sets in every value that an expression has in such a state. -/
theorem keys_proper {state : EvalState} (hstate : state.Occurs) :
    (∀ id, state.world.heap.ProperKeys (state.world.heap.dict id).keys) ∧
    (∀ id, state.world.heap.ProperKeys (state.world.heap.set id)) ∧
    (∀ mark keys, state.Holds (.frozenset mark keys) → state.world.heap.ProperKeys keys) ∧
    ∀ fuel expr value after, Eval.evaluate fuel expr state = (.ok value, after) →
      ∀ mark keys, (Value.frozenset mark keys).Within value →
        after.world.heap.ProperKeys keys := by
  have hsound := hstate.sound
  refine ⟨?_, ?_, ?_, ?_⟩
  · exact fun id => (hsound.heap.dict id).keys.proper _
  · exact fun id => (hsound.heap.set id).proper _
  · exact fun mark keys hholds => (hsound.holds hholds).proper_keys .self _
  · intro fuel expr value after hrun mark keys hwithin
    exact (Eval.evaluate_sound hsound fuel expr hrun).proper_keys hwithin _

/-- A set that is written with `1` and `true` has one member, and so has the frozen set made of it,
which is the key of a dictionary. -/
theorem keys_proper_of_numbers :
    let state := EvalState.afterStatements
      [.letBind "d" (.dict
        [(.call (.name "frozenset") [.set [.int 1, .bool true]], .string "a")])]
    state.Occurs ∧
      state.world.heap.set 0 = [.int 1] ∧
      (state.world.heap.dict 0).keys = [.frozenset 1 [.int 1]] ∧
      state.world.heap.ProperKeys (state.world.heap.dict 0).keys ∧
      state.world.heap.ProperKeys (state.world.heap.set 0) ∧
      state.world.heap.ProperKeys [.int 1] := by
  intro state
  have hoccurs : state.Occurs := EvalState.occurs_after_statements rfl
  have hkeys : (state.world.heap.dict 0).keys = [.frozenset 1 [.int 1]] := rfl
  have hholds : state.Holds (.frozenset 1 [.int 1]) := .dictKey (hkeys ▸ List.mem_cons_self)
  obtain ⟨hdict, hset, hfrozenset, -⟩ := keys_proper hoccurs
  exact ⟨hoccurs, rfl, hkeys, hdict 0, hset 0, hfrozenset 1 _ hholds⟩

end Script
