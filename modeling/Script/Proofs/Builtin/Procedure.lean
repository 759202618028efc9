import Script.Proofs.Builtin.Evolves
import Script.Proofs.Heap.Classes

/-!
# Operations in place

An `Action` that fails leaves the heap as it was, because its heap is given up. The machine has no
second heap to go back to: what an operation has written before it fails stays written. A
`Procedure` works in place like that; giving up the heap of a failure turns it into an action.
`Procedure.ConfinedAt` says that a procedure leaves all objects alone if it fails, and all but some
if it succeeds, with a rule for each way in which procedures are put together: what is done first
may fail and must not write, what is done last may write and must not fail afterwards.
-/

namespace Script

/-! ## What is left alone -/

namespace Store

variable {α : Type}

theorem modify_self (store : Store α) (id : Nat) :
    (store.modify id fun contents => contents) = store := by
  cases store with
  | mk cells =>
      simp only [modify, mk.injEq]
      apply Array.ext
      · simp
      · intro place _ _
        simp [Array.getElem_modify]

/-- Changing an object is replacing what it contains. -/
theorem modify_eq [Inhabited α] (store : Store α) (id : Nat) (change : α → α) :
    store.modify id change = store.modify id fun _ => change (store.get id) := by
  unfold modify
  congr 1
  refine Array.ext_getElem? fun place => ?_
  rw [Array.getElem?_modify, Array.getElem?_modify]
  split
  · rename_i hplace
    subst hplace
    rw [get, Array.getD_eq_getD_getElem?]
    cases store.cells[id]? <;> rfl
  · rfl

theorem modify_modify (store : Store α) (id : Nat) (first second : α → α) :
    (store.modify id first).modify id second =
      store.modify id fun contents => second (first contents) := by
  cases store with
  | mk cells =>
      simp only [modify, mk.injEq]
      apply Array.ext
      · simp
      · intro place _ _
        simp only [Array.getElem_modify]
        split <;> rfl

variable [Inhabited α] {changed : Nat → Prop} {store middle after : Store α}

/-- The second store has the objects of the first, all but some with the same contents, and may
have more. -/
structure Spares (changed : Nat → Prop) (store after : Store α) : Prop where
  next_le : store.next ≤ after.next
  get_eq {id : Nat} : id < store.next → ¬ changed id → after.get id = store.get id

theorem Spares.refl (store : Store α) : store.Spares changed store :=
  ⟨le_rfl, fun _ _ => rfl⟩

theorem Spares.trans (h : store.Spares changed middle) (h' : middle.Spares changed after) :
    store.Spares changed after :=
  ⟨h.next_le.trans h'.next_le,
    fun hid hnot => (h'.get_eq (hid.trans_le h.next_le) hnot).trans (h.get_eq hid hnot)⟩

theorem Spares.mono {more : Nat → Prop} (h : store.Spares changed after)
    (hmore : ∀ id, changed id → more id) : store.Spares more after :=
  ⟨h.next_le, fun hid hnot => h.get_eq hid fun hchanged => hnot (hmore _ hchanged)⟩

theorem spares_push (store : Store α) (contents : α) :
    store.Spares changed (store.push contents) :=
  ⟨(grows_push store contents).next_le, fun hid _ => (grows_push store contents).get_eq hid⟩

theorem spares_modify {id : Nat} (h : changed id) (change : α → α) :
    store.Spares changed (store.modify id change) := by
  refine ⟨(next_modify store id change).ge, fun {other} hother hnot => ?_⟩
  have hne : other ≠ id := fun heq => hnot (heq ▸ h)
  rcases Nat.lt_or_ge id store.next with hid | hid
  · rw [get_modify _ _ _ _ hid, if_neg hne]
  · exact get_modify_of_le _ _ _ _ hid

/-- Contents that are taken out of an object and put back are as they were. -/
theorem Spares.restore {id : Nat} {change : α → α}
    (h : (store.modify id change).Spares (fun _ => False) middle) :
    store.Spares changed (middle.modify id fun _ => store.get id) := by
  have hle : store.next ≤ middle.next := (next_modify store id change).ge.trans h.next_le
  refine ⟨hle.trans (next_modify middle id _).ge, fun {other} hother _ => ?_⟩
  have hmiddle : other < middle.next := hother.trans_le hle
  by_cases heq : other = id
  · subst heq
    rw [get_modify _ _ _ _ hmiddle, if_pos rfl]
  · have hput : middle.Spares (Eq id) (middle.modify id fun _ => store.get id) :=
      spares_modify rfl _
    have htaken : store.Spares (Eq id) (store.modify id change) := spares_modify rfl _
    have hkept := h.get_eq ((next_modify store id change).symm ▸ hother) fun hfalse => hfalse
    exact ((hput.get_eq hmiddle (Ne.symm heq)).trans hkept).trans
      (htaken.get_eq hother (Ne.symm heq))

end Store

namespace Heap

variable {changed more : Value → Prop} {heap middle after : Heap}

/-- The second heap has the objects of the first, all but some with the same contents, and may have
more. -/
structure Spares (changed : Value → Prop) (heap after : Heap) : Prop where
  lists : heap.lists.Spares (fun id => changed (.list id)) after.lists
  dicts : heap.dicts.Spares (fun id => changed (.dict id)) after.dicts
  sets : heap.sets.Spares (fun id => changed (.set id)) after.sets
  bytearrays : heap.bytearrays.Spares (fun id => changed (.bytearray id)) after.bytearrays
  functions : heap.functions.Spares (fun id => changed (.function id)) after.functions
  classes : heap.classes.Spares (fun id => changed (.classObject id)) after.classes
  instances : heap.instances.Spares (fun id => changed (.object id)) after.instances
  errors : heap.errors.Spares (fun id => changed (.error id)) after.errors

/-- The second heap has all the objects of the first as they were. -/
abbrev Preserves (heap after : Heap) : Prop :=
  heap.Spares (fun _ => False) after

theorem Spares.refl (heap : Heap) : heap.Spares changed heap :=
  ⟨.refl _, .refl _, .refl _, .refl _, .refl _, .refl _, .refl _, .refl _⟩

theorem Spares.trans (h : heap.Spares changed middle) (h' : middle.Spares changed after) :
    heap.Spares changed after :=
  ⟨h.lists.trans h'.lists, h.dicts.trans h'.dicts, h.sets.trans h'.sets,
    h.bytearrays.trans h'.bytearrays, h.functions.trans h'.functions, h.classes.trans h'.classes,
    h.instances.trans h'.instances, h.errors.trans h'.errors⟩

theorem Spares.mono (h : heap.Spares changed after) (hmore : ∀ value, changed value → more value) :
    heap.Spares more after :=
  ⟨h.lists.mono fun _ => hmore _, h.dicts.mono fun _ => hmore _, h.sets.mono fun _ => hmore _,
    h.bytearrays.mono fun _ => hmore _, h.functions.mono fun _ => hmore _,
    h.classes.mono fun _ => hmore _, h.instances.mono fun _ => hmore _,
    h.errors.mono fun _ => hmore _⟩

theorem Spares.of_preserves (h : heap.Preserves after) : heap.Spares changed after :=
  h.mono fun _ => False.elim

/-- What is done within limits changes only the objects that the limits name, and the errors that
they let be linked. -/
theorem Changes.spares {limits : Limits} (h : heap.Changes limits after)
    (hobjects : ∀ value, limits.objects value → changed value)
    (hnoted : ∀ id, ¬ limits.noted id)
    (hlinked : ∀ id, limits.linked id → changed (.error id)) : heap.Spares changed after := by
  induction h with
  | refl heap => exact .refl heap
  | trans _ _ ih ih' => exact ih.trans ih'
  | mark heap => exact { Spares.refl heap with }
  | newList heap items => exact { Spares.refl heap with lists := Store.spares_push _ _ }
  | newDict heap dict => exact { Spares.refl heap with dicts := Store.spares_push _ _ }
  | newSet heap keys => exact { Spares.refl heap with sets := Store.spares_push _ _ }
  | newBytearray heap bytes =>
      exact { Spares.refl heap with bytearrays := Store.spares_push _ _ }
  | newError heap kind arguments =>
      exact { Spares.refl heap with
        lists := Store.spares_push _ _
        errors := Store.spares_push _ _ }
  | setList heap h change =>
      exact { Spares.refl heap with lists := Store.spares_modify (hobjects _ h) change }
  | setDict heap h change =>
      exact { Spares.refl heap with dicts := Store.spares_modify (hobjects _ h) change }
  | setSet heap h change =>
      exact { Spares.refl heap with sets := Store.spares_modify (hobjects _ h) change }
  | setBytearray heap h change =>
      exact { Spares.refl heap with bytearrays := Store.spares_modify (hobjects _ h) change }
  | addNote heap h note => exact (hnoted _ h).elim
  | setCause heap h cause =>
      exact { Spares.refl heap with errors := Store.spares_modify (hlinked _ h) _ }

end Heap

/-! ## Procedures -/

/-- An operation on the heap whose changes stay when it fails. -/
abbrev Procedure := ExceptT Failure (StateM Heap)

namespace Procedure

variable {α β : Type}

/-- A single step, which either fails or changes the heap. -/
def step (action : Action α) : Procedure α := fun heap =>
  match action heap with
  | .ok (result, after) => (.ok result, after)
  | .error failure => (.error failure, heap)

/-- A procedure after which the heap is changed once more if it fails. -/
def orElseUndo (procedure : Procedure α) (undo : Heap → Heap) : Procedure α :=
  tryCatch procedure fun failure => do
    modify undo
    throw failure

/-- The action that a procedure amounts to where the heap of a failure is given up. -/
def forget (procedure : Procedure α) : Action α := fun heap =>
  match procedure heap with
  | (.ok result, after) => .ok (result, after)
  | (.error failure, _) => .error failure

variable {procedure : Procedure α} {undo : Heap → Heap} {heap after : Heap}

theorem or_else_undo_ok {result : α} (h : procedure heap = (.ok result, after)) :
    procedure.orElseUndo undo heap = (.ok result, after) := by
  show (ExceptT.tryCatch procedure _) heap = _
  simp only [ExceptT.tryCatch, bind, StateT.bind, ExceptT.mk, h]
  rfl

theorem or_else_undo_error {failure : Failure} (h : procedure heap = (.error failure, after)) :
    procedure.orElseUndo undo heap = (.error failure, undo after) := by
  show (ExceptT.tryCatch procedure _) heap = _
  simp only [ExceptT.tryCatch, bind, StateT.bind, ExceptT.mk, h]
  rfl

/-! ### Giving up the heap of a failure -/

@[simp]
theorem forget_pure (result : α) : (pure result : Procedure α).forget = pure result :=
  rfl

@[simp]
theorem forget_step (action : Action α) : (step action).forget = action := by
  funext heap
  unfold forget step
  rcases action heap with failure | ⟨result, after⟩ <;> rfl

@[simp]
theorem forget_bind (procedure : Procedure α) (next : α → Procedure β) :
    (procedure >>= next).forget = procedure.forget >>= fun result => (next result).forget := by
  funext heap
  show forget (fun heap => ExceptT.bindCont next (procedure heap).1 (procedure heap).2) heap = _
  simp only [forget, bind, StateT.bind, Except.bind]
  rcases procedure heap with ⟨failure | result, middle⟩ <;> rfl

@[simp]
theorem forget_map (change : α → β) (procedure : Procedure α) :
    (change <$> procedure).forget = change <$> procedure.forget := by
  rw [← bind_pure_comp, ← bind_pure_comp, forget_bind]
  rfl

@[simp]
theorem forget_ite (condition : Prop) [Decidable condition] (first second : Procedure α) :
    (if condition then first else second).forget =
      if condition then first.forget else second.forget :=
  apply_ite forget condition first second

/-- A change after a failure makes no difference where the heap of a failure is given up. -/
@[simp]
theorem forget_or_else_undo (procedure : Procedure α) (undo : Heap → Heap) :
    (procedure.orElseUndo undo).forget = procedure.forget := by
  funext heap
  unfold forget
  rcases hrun : procedure heap with ⟨failure | result, after⟩
  · rw [or_else_undo_error hrun]
  · rw [or_else_undo_ok hrun]

@[simp]
theorem forget_map_m (items : List α) (procedure : α → Procedure β) :
    (items.mapM procedure).forget = items.mapM fun item => (procedure item).forget := by
  induction items with
  | nil => rfl
  | cons item items ih => simp [List.mapM_cons, ih]

/-! ### What procedures leave alone -/

/-- If the procedure fails, all objects are as they were; otherwise all but some are. -/
structure ConfinedAt (procedure : Procedure α) (changed : Value → Prop) (heap : Heap) : Prop where
  done {result : α} {after : Heap} :
    procedure heap = (.ok result, after) → heap.Spares changed after
  failed {failure : Failure} {after : Heap} :
    procedure heap = (.error failure, after) → heap.Preserves after

/-- Some objects may be changed, and any fault may be met. -/
def writing (changed : Value → Prop) : Limits where
  objects := changed
  noted _ := False
  linked id := changed (.error id)
  faults _ := True

variable {changed : Value → Prop}

theorem confined_pure (result : α) : (pure result : Procedure α).ConfinedAt changed heap := by
  constructor
  · intro _ _ h
    cases h
    exact .refl heap
  · intro _ _ h
    cases h

theorem confined_step {action : Action α} (h : action.Within (writing changed)) :
    (step action).ConfinedAt changed heap := by
  constructor
  · intro result after hrun
    unfold step at hrun
    split at hrun
    · rename_i hok
      cases hrun
      exact (h.changes hok).spares (fun _ => id) (fun _ => id) fun _ => id
    · cases hrun
  · intro failure after hrun
    unfold step at hrun
    split at hrun
    · cases hrun
    · cases hrun
      exact .refl heap

theorem ConfinedAt.mono {more : Value → Prop}
    (h : procedure.ConfinedAt changed heap) (hmore : ∀ object, changed object → more object) :
    procedure.ConfinedAt more heap :=
  ⟨fun hrun => (h.done hrun).mono hmore, h.failed⟩

theorem bind_run (first : Procedure α) (next : α → Procedure β) (heap : Heap) :
    (first >>= next) heap = ExceptT.bindCont next (first heap).1 (first heap).2 :=
  rfl

/-- What is done first may fail, and changes no object. -/
theorem confined_bind_of_run {first : Procedure α} {next : α → Procedure β}
    (hfirst : first.ConfinedAt (fun _ => False) heap)
    (hnext : ∀ result middle, first heap = (.ok result, middle) →
      (next result).ConfinedAt changed middle) :
    (first >>= next).ConfinedAt changed heap := by
  have hrun := bind_run first next heap
  rcases hmiddle : first heap with ⟨failure | result, middle⟩
  · rw [hmiddle] at hrun
    constructor
    · intro _ _ h
      cases hrun.symm.trans h
    · intro _ _ h
      cases hrun.symm.trans h
      exact hfirst.failed hmiddle
  · have hkept := hfirst.done hmiddle
    rw [hmiddle] at hrun
    constructor
    · intro _ _ h
      exact .trans (.of_preserves hkept) ((hnext result middle hmiddle).done (hrun.symm.trans h))
    · intro _ _ h
      exact hkept.trans ((hnext result middle hmiddle).failed (hrun.symm.trans h))

theorem confined_bind {first : Procedure α} {next : α → Procedure β}
    (hfirst : first.ConfinedAt (fun _ => False) heap)
    (hnext : ∀ result middle, (next result).ConfinedAt changed middle) :
    (first >>= next).ConfinedAt changed heap :=
  confined_bind_of_run hfirst fun result middle _ => hnext result middle

/-- What is done last may change objects; nothing that can fail follows. -/
theorem confined_result {last : Procedure α} (h : last.ConfinedAt changed heap)
    (result : α → β) : (last >>= fun value => pure (result value)).ConfinedAt changed heap := by
  have hrun := bind_run last (fun value => pure (result value)) heap
  rcases hmiddle : last heap with ⟨failure | value, after⟩
  · rw [hmiddle] at hrun
    constructor
    · intro _ _ hdone
      cases hrun.symm.trans hdone
    · intro _ _ hfailed
      cases hrun.symm.trans hfailed
      exact h.failed hmiddle
  · rw [hmiddle] at hrun
    constructor
    · intro _ _ hdone
      cases hrun.symm.trans hdone
      exact h.done hmiddle
    · intro _ _ hfailed
      cases hrun.symm.trans hfailed

theorem confined_map_m {procedure : α → Procedure β}
    (h : ∀ item heap, (procedure item).ConfinedAt (fun _ => False) heap) (items : List α)
    (heap : Heap) : (items.mapM procedure).ConfinedAt (fun _ => False) heap := by
  induction items generalizing heap with
  | nil => exact confined_pure _
  | cons item items ih =>
      rw [List.mapM_cons]
      refine confined_bind (h item heap) fun result middle => ?_
      exact confined_result (ih middle) _

theorem confined_get {next : Heap → Procedure β} (h : (next heap).ConfinedAt changed heap) :
    (step get >>= next).ConfinedAt changed heap :=
  ⟨fun hrun => h.done hrun, fun hrun => h.failed hrun⟩

/-- A check that is followed by a procedure. -/
theorem confined_check {β : Type} {changed : Value → Prop} {condition : Prop}
    [Decidable condition] (kind : ErrorKind) (message : String) {next : Unit → Procedure β}
    (h : (next ()).ConfinedAt changed heap) :
    ConfinedAt (if condition then step (Action.raise kind message) >>= next else next ())
      changed heap := by
  split
  · refine ⟨fun hrun => ?_, fun hrun => ?_⟩
    · cases hrun
    · cases hrun
      exact .refl heap
  · exact h

end Procedure

end Script
