import Script.Proofs.Builtin.Procedure
import Script.Proofs.Builtin.Run
import Script.Proofs.Eval.Comparison
import Script.Proofs.Heap.Entries

/-!
# Dictionaries as maps

The dictionaries of a program are maps that remember in which order their keys were first bound.
All operations on them agree on where a key is and what it is bound to: taking over the entries of
another dictionary (`EvalState.Updates`), binding a key (`Heap.Assigns`), taking a key out
(`Heap.Pops`), and listing the entries and making a dictionary out of them again
(`Heap.ListsEntries`).
-/

namespace Script

open Script.Action Script.Builtin

attribute [local instance] KnownClasses.all

namespace Heap

/-! ## Operations on dictionaries -/

/-- The heap with other entries in a dictionary. -/
def withDict (heap : Heap) (id : DictId) (dict : Dict) : Heap :=
  { heap with dicts := heap.dicts.modify id fun _ => dict }

/-- The dictionary gives the value when it is asked for the key. -/
def Binds (heap : Heap) (id : DictId) (key value : Value) : Prop :=
  getItem (.dict id) key heap = .ok (value, heap)

/-- No double and no complex number is part of a key of the dictionary. -/
def PlainKeys (heap : Heap) (id : DictId) : Prop :=
  ∀ key ∈ (heap.dict id).keys, heap.FloatFree key

/-- What becomes of a heap when a key of a dictionary is bound to a value: if the key is there, what
it is bound to changes in its place, and else there is a new entry at the end. -/
structure Assigns (heap : Heap) (id : DictId) (key value : Value) (after : Heap) : Prop where
  run : setItem (.dict id) key value heap = .ok ((), after)
  /-- Nothing changes but the entries of the dictionary. -/
  kept : after = heap.withDict id (after.dict id)
  bound : after.Binds id key value
  entries :
    (∃ before old prior rest, (heap.dict id).entries = before ++ (old, prior) :: rest ∧
      heap.Equals key old ∧ (after.dict id).entries = before ++ (old, value) :: rest) ∨
    (∀ old ∈ (heap.dict id).keys, ¬heap.Equals key old) ∧
      (after.dict id).entries = (heap.dict id).entries ++ [(key, value)]

/-- How a key that is not there is missed: its text is reported, if it has one. -/
def missing (heap : Heap) (key : Value) : Failure :=
  match heap.display key with
  | .ok text => .raised .keyError text
  | .error fault => .fault fault

/-- What becomes of a heap when a key is taken out of a dictionary: what it is bound to is given
back, and nothing else is taken out. A key that is not there is missed in the same way as when the
dictionary is asked for it. -/
inductive Pops (heap : Heap) (id : DictId) (key : Value) : Prop where
  | present {before rest : List (Value × Value)} {entry : Value × Value}
      (entries : (heap.dict id).entries = before ++ entry :: rest)
      (equal : heap.Equals key entry.1) (bound : heap.Binds id key entry.2)
      (run : ∃ after, callMethod (.dict id) "pop" [key] heap = .ok (entry.2, after) ∧
        after = heap.withDict id (after.dict id) ∧ (after.dict id).entries = before ++ rest)
  | absent (absent : ∀ old ∈ (heap.dict id).keys, ¬heap.Equals key old)
      (missed : getItem (.dict id) key heap = .error (heap.missing key))
      (run : callMethod (.dict id) "pop" [key] heap = .error (heap.missing key))

/-- The action makes a new list with the items and changes nothing else. -/
def MakesList (heap : Heap) (action : Action Value) (items : List Value) (after : Heap) : Prop :=
  action heap = .ok (.list heap.lists.next, after) ∧
    after = { heap with lists := heap.lists.push items.toArray, nextMark := after.nextMark }

/-- The item of a dictionary for an entry: a tuple of its key and what it is bound to. -/
def IsPair (item : Value) (entry : Value × Value) : Prop :=
  ∃ mark, item = .tuple mark [entry.1, entry.2]

/-- A new dictionary is made of the items of a list. It has the entries of the given one, in the
same order, and so it is equal to it. That is also what `==` says, unless tuples are nested too
deeply for the machine in a value. -/
structure MakesEqual (heap : Heap) (id : DictId) (list : ListId) (after : Heap) : Prop where
  run : compute .dict [.list list] heap = .ok (.dict heap.dicts.next, after)
  kept : after = { heap with dicts := heap.dicts.push (heap.dict id) }
  new : heap.dicts.next ≠ id
  entries : after.dict heap.dicts.next = after.dict id
  equals : after.Equals (.dict heap.dicts.next) (.dict id)
  answer :
    BinaryOperator.equal.apply (.dict heap.dicts.next) (.dict id) after = .ok (.bool true, after) ∨
    BinaryOperator.equal.apply (.dict heap.dicts.next) (.dict id) after =
      .error (.fault .recursion) ∧ heap.nestingLimit < Value.heights (heap.dict id).values + 2

/-- The items of a dictionary are its keys paired with its values, and make up the same dictionary
again. -/
def ListsEntries (heap : Heap) (id : DictId) : Prop :=
  ∃ keys values items first second third last,
    heap.MakesList (callMethod (.dict id) "keys" []) keys first ∧
    heap.MakesList (callMethod (.dict id) "values" []) values second ∧
    heap.MakesList (callMethod (.dict id) "items" []) items third ∧
    keys = (heap.dict id).keys ∧ keys.length = values.length ∧
    List.Forall₂ IsPair items (keys.zip values) ∧
    third.MakesEqual id heap.lists.next last

section Runs

variable {heap : Heap} {id : DictId} {dict : Dict} {key value : Value}

theorem dict_with_dict (hid : id < heap.dicts.next) : (heap.withDict id dict).dict id = dict := by
  show (heap.dicts.modify id _).get id = dict
  rw [Store.get_modify _ _ _ _ hid, if_pos rfl]

theorem set_dict_run (heap : Heap) (id : DictId) (change : Dict → Dict) :
    setDict id change heap = .ok ((), heap.withDict id (change (heap.dict id))) := by
  show Except.ok ((), { heap with dicts := heap.dicts.modify id change }) = _
  rw [Store.modify_eq]
  rfl

theorem missing_run (heap : Heap) (key : Value) :
    (do raise .keyError (← Action.display key) : Action Value) heap =
      .error (heap.missing key) := by
  show (Action.display key heap >>= fun pair => raise .keyError pair.1 pair.2) = _
  rw [display_run, missing]
  cases heap.display key <;> rfl

theorem get_item_run (heap : Heap) (id : DictId) (hkey : key.isHashable = true) :
    getItem (.dict id) key heap =
      match (heap.dict id).get? key with
      | some value => .ok (value, heap)
      | none => .error (heap.missing key) := by
  unfold getItem
  rw [get_bind_run]
  dsimp only
  rw [bind_run (ensure_hashable_run hkey)]
  cases (heap.dict id).get? key with
  | some value => rfl
  | none => exact missing_run heap key

theorem binds_iff (hkey : key.isHashable = true) :
    heap.Binds id key value ↔ (heap.dict id).get? key = some value := by
  unfold Binds
  rw [get_item_run heap id hkey]
  cases (heap.dict id).get? key <;> simp

theorem set_item_run (hkey : key.isHashable = true) :
    setItem (.dict id) key value heap =
      .ok ((), heap.withDict id ((heap.dict id).insert key value)) := by
  unfold setItem
  rw [get_bind_run]
  dsimp only
  rw [bind_run (ensure_hashable_run hkey)]
  exact set_dict_run heap id _

theorem dict_pop_run (heap : Heap) (id : DictId) (hkey : key.isHashable = true) :
    callMethod (.dict id) "pop" [key] heap =
      match (heap.dict id).get? key with
      | some value => .ok (value, heap.withDict id ((heap.dict id).erase key))
      | none => .error (heap.missing key) := by
  have hmethod : ∃ method, method? heap (.dict id) "pop" = some method ∧ method.minimum = 1 ∧
      method.maximum = 2 ∧ method.run [key] = dictPop id key none := ⟨_, rfl, rfl, rfl, rfl⟩
  obtain ⟨method, hmethod, hleast, hmost, hrun⟩ := hmethod
  rw [call_method_run hmethod (by simp [hleast, hmost]), hrun]
  unfold dictPop
  rw [bind_run (ensure_hashable_run hkey), get_bind_run]
  cases (heap.dict id).get? key with
  | some value =>
      dsimp only
      rw [bind_run (set_dict_run heap id _)]
      rfl
  | none => exact missing_run heap key

theorem dict_update_run (heap : Heap) (id other : DictId) :
    callMethod (.dict id) "update" [.dict other] heap =
      .ok (.null, heap.withDict id ((heap.dict id).insertAll (heap.dict other))) := by
  rw [call_unary_run rfl]
  unfold dictUpdate
  dsimp only
  rw [get_bind_run, bind_run (set_dict_run heap id _)]
  rfl

theorem dict_items_run (heap : Heap) (entries : List (Value × Value)) :
    ∃ items mark, dictItems entries heap = .ok (items, { heap with nextMark := mark }) ∧
      List.Forall₂ IsPair items entries := by
  induction entries generalizing heap with
  | nil => exact ⟨[], heap.nextMark, rfl, .nil⟩
  | cons entry entries ih =>
      obtain ⟨key, value⟩ := entry
      obtain ⟨items, mark, hrun, hitems⟩ := ih { heap with nextMark := heap.nextMark + 1 }
      have hnew : newTuple [key, value] heap =
        .ok (.tuple heap.nextMark [key, value], { heap with nextMark := heap.nextMark + 1 }) := rfl
      refine ⟨.tuple heap.nextMark [key, value] :: items, mark, ?_, .cons ⟨_, rfl⟩ hitems⟩
      rw [dictItems, bind_run hnew, bind_run hrun]
      rfl

theorem dict_of_pairs_run {items : List Value} {entries : List (Value × Value)}
    (hitems : List.Forall₂ IsPair items entries)
    (hhashable : ∀ entry ∈ entries, entry.1.isHashable = true) :
    dictOfPairs dict items heap = .ok (dict.insertAll ⟨entries⟩, heap) := by
  induction hitems generalizing dict with
  | nil => rfl
  | @cons item entry items entries hitem _ ih =>
      obtain ⟨mark, rfl⟩ := hitem
      obtain ⟨hentry, hrest⟩ := List.forall_mem_cons.mp hhashable
      unfold dictOfPairs
      rw [get_bind_run]
      dsimp only [pair?]
      rw [bind_run (ensure_hashable_run hentry)]
      exact ih hrest

theorem compute_dict_run {list : ListId} {made : Dict}
    (h : dictOfPairs Dict.empty (heap.list list).toList heap = .ok (made, heap)) :
    compute .dict [.list list] heap =
      .ok (.dict heap.dicts.next, { heap with dicts := heap.dicts.push made }) := by
  have hcompute : compute .dict [.list list] heap =
    (dictOfPairs Dict.empty (heap.list list).toList >>= newDict) heap := rfl
  rw [hcompute, bind_run h]
  rfl

end Runs

/-- A dictionary and one with the same entries are equal, at a depth that depends on the tuples in
its values only. -/
theorem equal_within_same_entries {heap : Heap} {id other : DictId} (hdict : (heap.dict id).Sound)
    (hsame : heap.dict other = heap.dict id) :
    heap.equalWithin (Value.heights (heap.dict id).values + 2) (.dict other) (.dict id) =
      .ok true := by
  rw [equal_within_succ, Shape.compare_eq_true_iff]
  show Shape.Alike _ (.dict (heap.dict other)) (.dict (heap.dict id))
  rw [hsame]
  -- Keys are looked up, and each value is compared with itself.
  refine .dict rfl fun entry hentry => ⟨entry.2, ?_, ?_⟩
  · have hkey := hdict.keys.sound _ (List.mem_map_of_mem hentry)
    exact (hdict.get_eq_some_iff hkey).mpr ⟨entry, hentry, entry.1.same_key_refl, rfl⟩
  · have hvalue := Value.height_le_heights (List.mem_map_of_mem hentry : entry.2 ∈ _)
    exact agree_mono (agree_of_same_key entry.2.same_key_refl) (Nat.succ_le_succ hvalue)

/-- Where a dictionary and one with the same entries are compared, the machine gives up only if
tuples are nested too deeply. -/
theorem same_entries_answer {heap : Heap} {id other : DictId} (hdict : (heap.dict id).Sound)
    (hsame : heap.dict other = heap.dict id) :
    BinaryOperator.equal.apply (.dict other) (.dict id) heap = .ok (.bool true, heap) ∨
      BinaryOperator.equal.apply (.dict other) (.dict id) heap = .error (.fault .recursion) ∧
        heap.nestingLimit < Value.heights (heap.dict id).values + 2 := by
  have hequal := equal_within_same_entries hdict hsame
  rcases Nat.lt_or_ge heap.nestingLimit (Value.heights (heap.dict id).values + 2) with hdeep | hfits
  · obtain ⟨result, happly, hresult⟩ | ⟨hfails, -⟩ :=
      BinaryOperator.equal_answers heap (.dict other) (.dict id)
    · rw [hresult.mpr ⟨_, hequal⟩] at happly
      exact .inl happly
    · exact .inr ⟨hfails, hdeep⟩
  · exact .inl (BinaryOperator.equal_apply (equal_within_mono hequal hfits))

theorem exists_makes_equal {heap : Heap} {id : DictId} {list : ListId} (hid : id < heap.dicts.next)
    (hdict : (heap.dict id).Sound)
    (hitems : List.Forall₂ IsPair (heap.list list).toList (heap.dict id).entries) :
    ∃ after, heap.MakesEqual id list after := by
  have hpairs : dictOfPairs Dict.empty (heap.list list).toList heap =
      .ok (Dict.empty.insertAll (heap.dict id), heap) :=
    dict_of_pairs_run hitems fun entry hentry =>
      hdict.keys.hashable _ (List.mem_map_of_mem hentry)
  rw [hdict.insert_all_empty] at hpairs
  let after : Heap := { heap with dicts := heap.dicts.push (heap.dict id) }
  have hold : after.dict id = heap.dict id := by
    show (heap.dicts.push _).get id = _
    rw [Store.get_push, if_neg hid.ne]
    rfl
  have hnew : after.dict heap.dicts.next = after.dict id := by
    rw [hold]
    show (heap.dicts.push _).get heap.dicts.next = _
    rw [Store.get_push, if_pos rfl]
  have hafter : (after.dict id).Sound := hold ▸ hdict
  have hanswer := same_entries_answer hafter hnew
  rw [hold] at hanswer
  exact ⟨after, compute_dict_run hpairs, rfl, hid.ne', hnew,
    ⟨_, equal_within_same_entries hafter hnew⟩, hanswer⟩

theorem makes_list {heap : Heap} {action : Action Value} {items : List Value}
    (h : action heap = newList items.toArray heap) :
    heap.MakesList action items { heap with lists := heap.lists.push items.toArray } :=
  ⟨h, rfl⟩

theorem lists_entries {heap : Heap} {id : DictId} (hid : id < heap.dicts.next)
    (hdict : (heap.dict id).Sound) : heap.ListsEntries id := by
  obtain ⟨items, mark, hitems, hpairs⟩ := dict_items_run heap (heap.dict id).entries
  let third : Heap := { heap with lists := heap.lists.push items.toArray, nextMark := mark }
  have hcall : callMethod (.dict id) "items" [] heap = .ok (.list heap.lists.next, third) := by
    rw [call_nullary_run rfl, get_bind_run, bind_run hitems]
    rfl
  have hlist : (third.list heap.lists.next).toList = items := by
    show ((heap.lists.push items.toArray).get heap.lists.next).toList = items
    rw [Store.get_push, if_pos rfl]
  have hzip : (heap.dict id).entries = (heap.dict id).keys.zip (heap.dict id).values :=
    List.zip_of_prod rfl rfl
  have hpairs' : List.Forall₂ IsPair (third.list heap.lists.next).toList (third.dict id).entries :=
    hlist.symm ▸ hpairs
  have hmakes : ∃ last, third.MakesEqual id heap.lists.next last :=
    exists_makes_equal hid hdict hpairs'
  obtain ⟨last, hlast⟩ := hmakes
  have hkeys : callMethod (.dict id) "keys" [] heap = newList (heap.dict id).keys.toArray heap := by
    rw [call_nullary_run rfl]
    rfl
  have hvalues : callMethod (.dict id) "values" [] heap =
      newList (heap.dict id).values.toArray heap := by
    rw [call_nullary_run rfl]
    rfl
  refine ⟨_, _, items, _, _, third, last, makes_list hkeys, makes_list hvalues, ⟨hcall, rfl⟩, rfl,
    ?_, hzip ▸ hpairs, hlast⟩
  simp [Dict.keys, Dict.values]

end Heap

namespace EvalState

/-- A value at hand that can be a key, and that no double and no complex number is part of. -/
structure Key (state : EvalState) where
  value : Value
  atHand : state.AtHand value
  hashable : value.isHashable = true
  floatFree : state.world.heap.FloatFree value

open Classical in
/-- What becomes of a heap when a dictionary takes over the entries of another: its keys stay where
they are, those of the other that are not equal to any of them follow, and what a key is bound to is
what the other binds it to, or else what it was bound to before. -/
structure Updates (state : EvalState) (id other : DictId) (after : Heap) : Prop where
  run : callMethod (.dict id) "update" [.dict other] state.world.heap = .ok (.null, after)
  /-- Nothing changes but the entries of the dictionary. -/
  kept : after = state.world.heap.withDict id (after.dict id)
  keys : (after.dict id).keys = (state.world.heap.dict id).keys ++
    (state.world.heap.dict other).keys.filter fun key =>
      ∀ old ∈ (state.world.heap.dict id).keys, ¬state.world.heap.Equals key old
  bound (key : state.Key) (value : Value) : after.Binds id key.value value ↔
    state.world.heap.Binds other key.value value ∨
      (∀ value, ¬state.world.heap.Binds other key.value value) ∧
        state.world.heap.Binds id key.value value

variable {state : EvalState} {id other : DictId} {value old : Value}

theorem Arises.dict (hstate : state.Arises) (id : DictId) : (state.world.heap.dict id).Sound :=
  hstate.sound.heap.dict id

namespace Key

/-- A key of a dictionary is at hand. -/
def ofDict (hstate : state.Arises) (hplain : state.world.heap.PlainKeys id)
    (h : value ∈ (state.world.heap.dict id).keys) : state.Key :=
  ⟨value, .held (.dictKey h), (hstate.dict id).keys.hashable value h, hplain value h⟩

variable (hstate : state.Arises) (key : state.Key)
include hstate

theorem sound : key.value.Sound :=
  key.atHand.sound hstate

/-- A key is equal to one of a dictionary if it is the same key. -/
theorem equals_iff (hold : old ∈ (state.world.heap.dict id).keys) :
    state.world.heap.Equals key.value old ↔ key.value.sameKey old = true :=
  Heap.equals_iff_same_key key.hashable ((hstate.dict id).keys.hashable old hold)
    (key.floatFree _ .refl)

theorem not_equals_of_get_none (h : (state.world.heap.dict id).get? key.value = none) :
    ∀ old ∈ (state.world.heap.dict id).keys, ¬state.world.heap.Equals key.value old := by
  intro old hold
  rw [key.equals_iff hstate hold]
  obtain ⟨entry, hentry, rfl⟩ := List.mem_map.mp hold
  rw [Dict.get_eq_none_iff.mp h entry hentry]
  exact Bool.false_ne_true

/-- A dictionary gives for a key what the equal key in it is bound to. -/
theorem binds_iff : state.world.heap.Binds id key.value value ↔
    ∃ entry ∈ (state.world.heap.dict id).entries,
      state.world.heap.Equals key.value entry.1 ∧ entry.2 = value := by
  rw [Heap.binds_iff key.hashable, (hstate.dict id).get_eq_some_iff (key.sound hstate)]
  refine exists_congr fun entry => and_congr_right fun hentry => ?_
  rw [key.equals_iff hstate (List.mem_map_of_mem hentry)]

theorem assigns (hid : id < state.world.heap.dicts.next) (value : Value) :
    ∃ after, state.world.heap.Assigns id key.value value after := by
  have hdict := hstate.dict id
  have hkey := key.sound hstate
  refine ⟨_, Heap.set_item_run key.hashable, by rw [Heap.dict_with_dict hid], ?_, ?_⟩
  · rw [Heap.binds_iff key.hashable, Heap.dict_with_dict hid, Dict.get_insert _ hkey hkey,
      if_pos (key.value.same_key_refl)]
    exact fun entry hentry => hdict.keys.sound _ (List.mem_map_of_mem hentry)
  · rw [Heap.dict_with_dict hid]
    cases hfound : (state.world.heap.dict id).get? key.value with
    | none =>
        refine .inr ⟨key.not_equals_of_get_none hstate hfound, ?_⟩
        exact Dict.insert_into_absent (Dict.get_eq_none_iff.mp hfound)
    | some prior =>
        obtain ⟨before, entry, rest, hentries, -, hsame, hbefore⟩ := Dict.exists_split hfound
        refine .inl ⟨before, entry.1, entry.2, rest, hentries, ?_, ?_⟩
        · exact (key.equals_iff hstate (Dict.mem_keys hentries)).mpr hsame
        · show Dict.insertInto _ _ _ = _
          rw [hentries]
          exact Dict.insert_into_present hbefore hsame

theorem pops (hid : id < state.world.heap.dicts.next) : state.world.heap.Pops id key.value := by
  have hrun := state.world.heap.dict_pop_run id key.hashable
  have hget := state.world.heap.get_item_run id key.hashable
  cases hfound : (state.world.heap.dict id).get? key.value with
  | none =>
      rw [hfound] at hrun hget
      exact .absent (key.not_equals_of_get_none hstate hfound) hget hrun
  | some value =>
      rw [hfound] at hrun hget
      obtain ⟨before, entry, rest, hentries, rfl, hsame, -⟩ := Dict.exists_split hfound
      refine .present hentries ?_ hget ⟨_, hrun, by rw [Heap.dict_with_dict hid], ?_⟩
      · exact (key.equals_iff hstate (Dict.mem_keys hentries)).mpr hsame
      · rw [Heap.dict_with_dict hid]
        exact (hstate.dict id).erase_split (key.sound hstate) hentries hsame

end Key

theorem exists_updates (hstate : state.Arises) (hid : id < state.world.heap.dicts.next)
    (hplain : state.world.heap.PlainKeys other) : ∃ after, state.Updates id other after := by
  classical
  refine ⟨_, Heap.dict_update_run _ _ _, by rw [Heap.dict_with_dict hid], ?_, fun key value => ?_⟩
  · rw [Heap.dict_with_dict hid, Dict.keys_insert_all,
      Keys.insert_all_eq (hstate.dict other).keys.toProper]
    refine congrArg _ (List.filter_congr fun value hvalue => ?_)
    let key : state.Key := .ofDict hstate hplain hvalue
    have hequals : (∀ old ∈ (state.world.heap.dict id).keys, ¬state.world.heap.Equals value old) ↔
        Keys.mem value (state.world.heap.dict id).keys = false := by
      rw [Keys.mem, List.any_eq_false]
      exact forall₂_congr fun old hold => not_congr (key.equals_iff hstate hold)
    rw [Bool.eq_iff_iff, decide_eq_true_iff, hequals, Bool.not_eq_true']
  · rw [Heap.binds_iff key.hashable, Heap.binds_iff key.hashable, Heap.binds_iff key.hashable,
      Heap.dict_with_dict hid,
      (hstate.dict id).get_insert_all (hstate.dict other) (key.sound hstate)]
    simp only [Heap.binds_iff key.hashable]
    cases (state.world.heap.dict other).get? key.value <;> simp

/-- The dictionaries of a program are maps that remember in which order their keys were first bound.
What a dictionary gives for a key is what an equal key in it is bound to; taking over another
dictionary, which may be the same one, binding a key and taking a key out change what they are meant
to and keep the order of the rest; and the items of a dictionary make up an equal one with the same
order. The keys in question are without doubles and complex numbers, those of the dictionary itself
need not be. -/
theorem dictionaries_are_ordered_maps (hstate : state.Arises)
    (hid : id < state.world.heap.dicts.next) (hplain : state.world.heap.PlainKeys other) :
    let heap := state.world.heap
    (∀ (key : state.Key) (dict : DictId) (value : Value), heap.Binds dict key.value value ↔
      ∃ entry ∈ (heap.dict dict).entries, heap.Equals key.value entry.1 ∧ entry.2 = value) ∧
    (∃ after, state.Updates id other after) ∧
    (∀ (key : state.Key) (value : Value), ∃ after, heap.Assigns id key.value value after) ∧
    (∀ key : state.Key, heap.Pops id key.value) ∧
    heap.ListsEntries id := by
  refine ⟨fun key dict value => key.binds_iff hstate, exists_updates hstate hid hplain, ?_, ?_, ?_⟩
  · exact fun key value => key.assigns hstate hid value
  · exact fun key => key.pops hstate hid
  · exact Heap.lists_entries hid (hstate.dict id)

/-- The dictionaries `{1: "a", "k": "b"}` and `{true: "c", 2: "d"}`: the key `1` stays and is bound
to what the other binds `true` to. -/
theorem dictionaries_are_ordered_maps_mixed :
    let statements : List Expr := [
      .letBind "d" (.dict [(.int 1, .string "a"), (.string "k", .string "b")]),
      .letBind "e" (.dict [(.bool true, .string "c"), (.int 2, .string "d")])]
    let state := EvalState.afterStatements statements
    state.Arises ∧ 0 < state.world.heap.dicts.next ∧ state.world.heap.PlainKeys 1 ∧
      ∃ key : state.Key, key.value = .int 1 ∧
        (∃ after, state.Updates 0 1 after ∧ after.Binds 0 (.int 1) (.str "c")) ∧
        (∃ after, state.world.heap.Assigns 0 (.int 1) .null after) ∧
        state.world.heap.Pops 0 (.int 1) ∧ state.world.heap.ListsEntries 0 := by
  intro statements state
  have hends : (Eval.body (Eval.evaluate 5) statements
      (Interpreter.fresh 1000 (Console.ofInput "")).started).1 = .ok .null := rfl
  have harises : state.Arises := .occurs (EvalState.occurs_after_statements (Prod.ext hends rfl))
  have hid : 0 < state.world.heap.dicts.next := by decide
  have hplain : state.world.heap.PlainKeys 1 := by
    intro key hkey
    have hwithin : (state.world.heap.dict 1).keys.all (state.world.heap.plainWithin 1) = true := rfl
    exact .of_plain (List.all_eq_true.mp hwithin key hkey)
  have hplain' : state.world.heap.PlainKeys 0 := by
    intro key hkey
    have hwithin : (state.world.heap.dict 0).keys.all (state.world.heap.plainWithin 1) = true := rfl
    exact .of_plain (List.all_eq_true.mp hwithin key hkey)
  have hmem : (.int 1 : Value) ∈ (state.world.heap.dict 0).keys := List.mem_cons_self
  let key : state.Key := .ofDict harises hplain' hmem
  obtain ⟨-, ⟨after, hupdates⟩, hassigns, hpops, hlists⟩ :=
    dictionaries_are_ordered_maps harises hid hplain
  have hbinds : state.world.heap.Binds 1 (.int 1) (.str "c") := (Heap.binds_iff rfl).mpr rfl
  have hbinds' : after.Binds 0 (.int 1) (.str "c") := (hupdates.bound key _).mpr (.inl hbinds)
  exact ⟨harises, hid, hplain, key, rfl, ⟨after, hupdates, hbinds'⟩, hassigns key .null,
    hpops key, hlists⟩

end EvalState

end Script
