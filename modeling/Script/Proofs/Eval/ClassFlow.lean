import Script.Proofs.Eval.Parallel
import Script.Proofs.Heap.Classes

/-!
# Evaluation keeps the heap well shaped

A class can be named by a value only if it has been defined before. `Eval.Keeps` says of a part of
an evaluation that it keeps states so, with the heap well shaped, and that its result names classes
that exist. The classes that have existed before are an index of it, since a value is used later
than it is made: there may be more classes by then, and those from before are as they were.
-/

namespace Script

/-! ## Known classes -/

/-- All classes up to a number are known. -/
def KnownClasses.Cover [KnownClasses] (count : Nat) : Prop :=
  ∀ id < count, KnownClasses.known id

theorem KnownClasses.Cover.mono [KnownClasses] {count more : Nat} (hcover : Cover more)
    (hle : count ≤ more) : Cover count :=
  fun id hid => hcover id (hid.trans_le hle)

/-- The property holds if the classes up to a number are known. -/
def Among (count : Nat) (holds : [KnownClasses] → Prop) : Prop :=
  ∀ _ : KnownClasses, KnownClasses.Cover count → holds

namespace Among

variable {count more : Nat}

theorem mono {holds : [KnownClasses] → Prop} (h : Among count holds) (hle : count ≤ more) :
    Among more holds :=
  fun _ hcover => h _ (hcover.mono hle)

/-- A class that has to be known is one of the first. -/
theorem lt {id : ClassId} (h : Among count (KnownClasses.known id)) : id < count :=
  h ⟨fun id => id < count⟩ fun _ hid => hid

/-- What does not depend on the known classes. -/
theorem holds {holds : Prop} (h : Among count holds) : holds :=
  h .all fun _ _ => trivial

end Among

namespace EvalState

/-- The classes that have been defined. -/
def classes (state : EvalState) : Store ClassDef :=
  state.world.heap.classes

/-- The heap is well shaped, and all classes that are named, by values or in the table of classes,
exist. -/
structure Shaped (state : EvalState) : Prop where
  heap : state.world.heap.Shaped
  sound : Among state.classes.next state.Sound
  named {name : String} {id : ClassId} (h : state.world.classes.get? name = some id) :
    id < state.classes.next

/-- Only the heap, the scope and the table of classes matter. -/
theorem Shaped.with_scope {state after : EvalState} (h : state.Shaped)
    (hheap : after.world.heap = state.world.heap)
    (hclasses : after.world.classes = state.world.classes)
    (hscope : Among state.classes.next after.scope.Sound) : after.Shaped := by
  have hsame : after.classes = state.classes := congrArg Heap.classes hheap
  refine ⟨hheap ▸ h.heap, ?_, fun hnamed => ?_⟩
  · rw [hsame]
    exact fun _ hcover => ⟨hscope _ hcover, hheap ▸ (h.sound _ hcover).heap⟩
  · rw [hsame]
    exact h.named (hclasses ▸ hnamed)

theorem Shaped.scope_sound {state : EvalState} (h : state.Shaped) :
    Among state.classes.next state.scope.Sound :=
  fun _ hcover => (h.sound _ hcover).scope

theorem Shaped.heap_sound {state : EvalState} (h : state.Shaped) :
    Among state.classes.next state.world.heap.Sound :=
  fun _ hcover => (h.sound _ hcover).heap

/-- Another heap with the same classes and instances. -/
theorem Shaped.with_heap {state : EvalState} (h : state.Shaped) {heap : Heap}
    (hclasses : heap.classes = state.world.heap.classes)
    (hinstances : heap.instances = state.world.heap.instances)
    (hsound : Among state.classes.next heap.Sound) : (state.withHeap heap).Shaped := by
  have hsame : (state.withHeap heap).classes = state.classes := hclasses
  refine ⟨h.heap.congr hclasses hinstances, ?_, fun hnamed => ?_⟩
  · rw [hsame]
    exact fun _ hcover => ⟨h.scope_sound _ hcover, hsound _ hcover⟩
  · rw [hsame]
    exact h.named hnamed

end EvalState

/-- The operation leaves classes and instances alone. -/
def Action.Spares {α : Type} (action : Action α) : Prop :=
  ∀ heap result after, action heap = .ok (result, after) →
    after.classes = heap.classes ∧ after.instances = heap.instances

theorem Action.Within.spares {α : Type} {action : Action α} (h : action.Within .none) :
    action.Spares := by
  intro heap result after hrun
  have hevolves := (h.changes hrun).evolves
  exact ⟨hevolves.classes_eq, hevolves.instances_eq⟩

theorem Application.spares (application : Application) {α : Type} {action : Action α}
    (h : action.effect = application.effect) : action.Spares := by
  intro heap result after hrun
  have heffect := Action.effect_of_ok hrun
  rw [h] at heffect
  obtain ⟨error, caught, rfl⟩ | ⟨_, other, heq, hwithin⟩ := application.cases_effect
  · cases heffect
    exact ⟨rfl, rfl⟩
  · rw [heq] at heffect
    obtain ⟨_, hother⟩ := Action.exists_of_effect heffect
    have hevolves := (hwithin.changes hother).evolves
    exact ⟨hevolves.classes_eq, hevolves.instances_eq⟩

namespace Eval

open EvalState

variable {α β : Type} {classes : Store ClassDef} {good : [KnownClasses] → α → Prop}
  {next : [KnownClasses] → β → Prop}

/-- An evaluation has ended in a well shaped state that has all the classes, with a result as
required. -/
inductive Kept (classes : Store ClassDef) (good : [KnownClasses] → α → Prop) :
    Except Exit α × EvalState → Prop where
  | ok {result : α} {after : EvalState} (hgrows : classes.Grows after.classes)
      (hshaped : after.Shaped) (hgood : Among after.classes.next (good result)) :
      Kept classes good (.ok result, after)
  | error {exit : Exit} {after : EvalState} (hgrows : classes.Grows after.classes)
      (hshaped : after.Shaped) (hexit : Among after.classes.next exit.Sound) :
      Kept classes good (.error exit, after)

/-- From well shaped states that have all the classes, the evaluation leads to such states. -/
def Keeps (classes : Store ClassDef) (good : [KnownClasses] → α → Prop) (part : Eval α) : Prop :=
  ∀ state, classes.Grows state.classes → state.Shaped → Kept state.classes good (part state)

theorem Kept.of_grows {now : Store ClassDef} {outcome : Except Exit α × EvalState}
    (h : Kept now good outcome) (hgrows : classes.Grows now) : Kept classes good outcome := by
  cases h with
  | ok hgrows' hshaped hgood => exact .ok (hgrows.trans hgrows') hshaped hgood
  | error hgrows' hshaped hexit => exact .error (hgrows.trans hgrows') hshaped hexit

/-! ## The parts of a rule -/

theorem keeps_pure {result : α} (h : Among classes.next (good result)) :
    Keeps classes good (pure result) :=
  fun _ hgrows hshaped => .ok (.refl _) hshaped (h.mono hgrows.next_le)

theorem keeps_throw {exit : Exit} (h : Among classes.next exit.Sound) :
    Keeps classes good (throw exit) :=
  fun _ hgrows hshaped => .error (.refl _) hshaped (h.mono hgrows.next_le)

theorem Keeps.bind {part : Eval α} {rest : α → Eval β} (hpart : Keeps classes good part)
    (hrest : ∀ result now, classes.Grows now → Among now.next (good result) →
      Keeps now next (rest result)) : Keeps classes next (part >>= rest) := by
  intro state hgrows hshaped
  have hkept := hpart state hgrows hshaped
  rw [run_bind]
  generalize part state = outcome at hkept
  cases hkept with
  | ok hgrows' hshaped' hgood =>
      exact (hrest _ _ (hgrows.trans hgrows') hgood _ (.refl _) hshaped').of_grows hgrows'
  | error hgrows' hshaped' hexit => exact .error hgrows' hshaped' hexit

/-- What looks at the state. -/
theorem keeps_get {rest : EvalState → Eval β}
    (h : ∀ state, classes.Grows state.classes → state.Shaped →
      Keeps state.classes next (rest state)) : Keeps classes next (get >>= rest) :=
  fun state hgrows hshaped => h state hgrows hshaped state (.refl _) hshaped

/-- What looks at the heap. -/
theorem keeps_heap {rest : Heap → Eval β}
    (h : ∀ heap : Heap, classes.Grows heap.classes → heap.Shaped →
      Among heap.classes.next heap.Sound → Keeps heap.classes next (rest heap)) :
    Keeps classes next (heap >>= rest) :=
  keeps_get fun state hgrows hshaped =>
    h state.world.heap hgrows hshaped.heap hshaped.heap_sound

theorem keeps_scope : Keeps classes Scope.Sound scope :=
  fun _ _ hshaped => .ok (.refl _) hshaped hshaped.scope_sound

theorem keeps_set_scope {scope : Scope} (h : Among classes.next scope.Sound) :
    Keeps classes (fun _ => True) (setScope scope) :=
  fun _ hgrows hshaped =>
    .ok (.refl _) (hshaped.with_scope rfl rfl (h.mono hgrows.next_le)) fun _ _ => trivial

/-- A change of the world that has nothing to do with the heap and the table of classes. -/
theorem keeps_modify_world {change : World → World}
    (hheap : ∀ world, (change world).heap = world.heap)
    (hclasses : ∀ world, (change world).classes = world.classes) :
    Keeps classes (fun _ => True) (modifyWorld change) := by
  intro state _ hshaped
  have hshaped' : EvalState.Shaped { state with world := change state.world } :=
    hshaped.with_scope (hheap _) (hclasses _) hshaped.scope_sound
  have hsame : (change state.world).heap.classes = state.classes :=
    congrArg Heap.classes (hheap _)
  exact .ok (hsame ▸ .refl _) hshaped' fun _ _ => trivial

theorem keeps_record (event : LogEvent) : Keeps classes (fun _ => True) (record event) :=
  keeps_modify_world (fun _ => rfl) fun _ => rfl

/-- An operation that leaves classes and instances alone and keeps the heap sound. -/
theorem keeps_perform {action : Action α} (hspares : action.Spares)
    (h : Among classes.next (action.Keeps good)) : Keeps classes good (perform action) := by
  intro state hgrows hshaped
  have hkeeps : Among state.classes.next (action.Keeps good) := h.mono hgrows.next_le
  unfold perform
  cases hrun : action state.world.heap with
  | ok pair =>
      obtain ⟨result, after⟩ := pair
      obtain ⟨hclasses, hinstances⟩ := hspares _ _ _ hrun
      have hsame : (state.withHeap after).classes = state.classes := hclasses
      have hkept : Among state.classes.next (good result ∧ after.Sound) :=
        fun _ hcover => hkeeps _ hcover _ (hshaped.heap_sound _ hcover) _ _ hrun
      refine .ok (hsame ▸ .refl _) ?_ ?_
      · exact hshaped.with_heap hclasses hinstances fun _ hcover => (hkept _ hcover).2
      · show Among (state.withHeap after).classes.next (good result)
        rw [hsame]
        exact fun _ hcover => (hkept _ hcover).1
  | error failure =>
      cases failure with
      | fault fault => exact .error (.refl _) hshaped fun _ _ => trivial
      | raised kind message =>
          refine .error (.refl _) (hshaped.with_heap rfl rfl fun _ hcover => ?_) fun _ _ => trivial
          have hnew := Action.keeps_new_error kind [message] _ (hshaped.heap_sound _ hcover)
          exact (hnew _ _ rfl).2

theorem keeps_raise (kind : ErrorKind) (message : String) :
    Keeps classes good (raise kind message) :=
  keeps_perform (Action.within_raise kind message).spares fun _ _ => Action.keeps_raise kind message

theorem keeps_raise_then (kind : ErrorKind) (message : String) {rest : α → Eval β} :
    Keeps classes next (raise kind message >>= rest) := by
  rw [raise_bind]
  exact keeps_raise kind message

/-! ## Names and bindings -/

theorem keeps_check_writable (name : String) :
    Keeps classes (fun _ => True) (checkWritable name) := by
  have hconstant : Keeps classes (fun _ => True)
      (do if (← scope).isConstant name then
            raise .typeError s!"cannot reassign constant '{name}'") := by
    refine keeps_scope.bind fun scope _ _ _ => ?_
    split
    · exact keeps_raise _ _
    · exact keeps_pure fun _ _ => trivial
  unfold checkWritable
  by_cases hfrozen : (frozenValue? name).isSome
  · simp only [hfrozen, if_true]
    exact keeps_raise_then _ _
  · simp only [hfrozen]
    exact hconstant

theorem keeps_bind_name (name : String) {value : Value} (h : Among classes.next value.Sound) :
    Keeps classes (fun _ => True) (bindName name value) := by
  refine (keeps_check_writable name).bind fun _ _ hgrows _ => ?_
  refine keeps_scope.bind fun scope _ hgrows' hscope => keeps_set_scope fun _ hcover => ?_
  exact Table.Sound.insert (hscope _ hcover) name
    (h _ (hcover.mono (hgrows.trans hgrows').next_le))

theorem keeps_bind_constant (name : String) {value : Value} (h : Among classes.next value.Sound) :
    Keeps classes (fun _ => True) (bindConstant name value) := by
  refine (keeps_check_writable name).bind fun _ _ hgrows _ => ?_
  refine keeps_scope.bind fun scope _ hgrows' hscope => keeps_set_scope fun _ hcover => ?_
  exact Table.Sound.insert (hscope _ hcover) name
    (h _ (hcover.mono (hgrows.trans hgrows').next_le))

theorem keeps_bind_all {pairs : List (String × Value)}
    (h : Among classes.next (∀ pair ∈ pairs, pair.2.Sound)) :
    Keeps classes (fun _ => True) (bindAll pairs) := by
  induction pairs generalizing classes with
  | nil => exact keeps_pure fun _ _ => trivial
  | cons pair pairs ih =>
      have hfirst : Among classes.next pair.2.Sound :=
        fun _ hcover => h _ hcover pair List.mem_cons_self
      refine (keeps_bind_name pair.1 hfirst).bind fun _ _ hgrows _ => ih ?_
      intro _ hcover other hother
      exact h _ (hcover.mono hgrows.next_le) other (List.mem_cons_of_mem _ hother)

theorem keeps_lookup (name : String) : Keeps classes Value.Sound (lookup name) := by
  refine keeps_get fun state _ hshaped => ?_
  cases hfound : state.world.lookup? state.scope name with
  | some value =>
      refine keeps_pure fun _ hcover => World.sound_lookup (hshaped.scope_sound _ hcover) ?_ hfound
      exact fun _ id hnamed => hcover id (hshaped.named hnamed)
  | none => exact keeps_raise _ _

/-- A class that a name means exists. -/
theorem keeps_lookup_class (name : String) :
    Keeps classes (fun id => KnownClasses.known id) (lookupClass name) := by
  refine keeps_get fun state _ hshaped => ?_
  dsimp only
  split
  · exact keeps_raise _ _
  · exact keeps_raise _ _
  · rename_i id hfound
    refine keeps_pure fun _ hcover => ?_
    obtain hbound | ⟨-, hnamed⟩ := Option.or_eq_some_iff.mp hfound
    · exact Table.Sound.get (hshaped.scope_sound _ hcover) hbound
    · obtain ⟨_, hnamed, heq⟩ := Option.map_eq_some_iff.mp hnamed
      cases heq
      exact hcover id (hshaped.named hnamed)
  · exact keeps_raise _ _

/-! ## Attributes and definitions -/

theorem keeps_instance_attribute (id : InstanceId) (name : String) :
    Keeps classes Value.Sound (instanceAttribute id name) := by
  refine keeps_heap fun heap _ _ hheap => ?_
  dsimp only
  split
  · rename_i value hfound
    refine keeps_pure fun _ hcover => ?_
    obtain hfield | ⟨-, hdefault⟩ := Option.or_eq_some_iff.mp hfound
    · exact Table.Sound.get ((hheap _ hcover).instanceOf id) hfield
    · exact (hheap _ hcover).find_field hdefault
  · split
    · refine keeps_perform (Action.within_bind Action.within_new_mark fun _ =>
        Action.within_pure _).spares fun _ _ => ?_
      exact Action.keeps_new_mark.bind fun _ _ => Action.keeps_pure trivial
    · exact keeps_raise _ _

theorem keeps_class_attribute (id : ClassId) (name : String) :
    Keeps classes Value.Sound (classAttribute id name) := by
  refine keeps_heap fun heap _ _ hheap => ?_
  dsimp only
  split
  · split
    · exact keeps_pure fun _ _ => trivial
    · exact keeps_raise _ _
  · split
    · rename_i value hfound
      refine keeps_pure fun _ hcover => ?_
      obtain hdefault | ⟨-, hmethod⟩ := Option.or_eq_some_iff.mp hfound
      · exact (hheap _ hcover).find_field hdefault
      · obtain ⟨method, -, rfl⟩ := Option.map_eq_some_iff.mp hmethod
        trivial
    · exact keeps_raise _ _

theorem keeps_get_attribute {object : Value} (h : Among classes.next object.Sound)
    (name : String) : Keeps classes Value.Sound (getAttribute object name) := by
  unfold getAttribute
  split
  · exact keeps_instance_attribute _ name
  · exact keeps_class_attribute _ name
  · exact keeps_perform (Builtin.within_get_attribute _ name).spares fun _ hcover =>
      Builtin.keeps_get_attribute (h _ hcover) name

/-- A field is set only if a struct declares it. -/
theorem keeps_set_attribute (object : Value) (name : String) {value : Value}
    (h : Among classes.next value.Sound) :
    Keeps classes (fun _ => True) (setAttribute object name value) := by
  intro state hgrows hshaped
  cases object with
  | object id =>
      let definition := state.world.heap.classOf id
      show Kept state.classes _ ((if definition.kind = .struct && !definition.fields.contains name
        then raise .attributeError _ >>= fun _ => perform (Action.setField id name value)
        else perform (Action.setField id name value) : Eval Unit) state)
      split
      · exact keeps_raise_then _ _ state (.refl _) hshaped
      · rename_i hallowed
        have hfield (hstruct : definition.kind = .struct) : definition.fields.contains name := by
          simpa [hstruct] using hallowed
        refine .ok (.refl _) ⟨hshaped.heap.set_field hfield value, ?_, hshaped.named⟩
          fun _ _ => trivial
        intro _ hcover
        refine ⟨hshaped.scope_sound _ hcover, ?_⟩
        have hset := Action.keeps_set_field id name (h _ (hcover.mono hgrows.next_le))
        exact (hset _ (hshaped.heap_sound _ hcover) _ _ rfl).2
  | _ => exact keeps_raise _ _ state (.refl _) hshaped

theorem keeps_make_function (name : String) (parameters : List String) (exprs : List Expr) :
    Keeps classes (fun _ => True) (makeFunction name parameters exprs) := by
  unfold makeFunction
  split
  · exact keeps_raise _ _
  · intro state _ hshaped
    refine .ok (.refl _) (hshaped.with_heap rfl rfl fun _ hcover => ?_) fun _ _ => trivial
    have hnew := Action.keeps_new_function ⟨name, parameters, exprs⟩
    exact (hnew _ (hshaped.heap_sound _ hcover) _ _ rfl).2

/-- A class is added that is derived from one that exists, and not from a struct or enumeration. -/
theorem keeps_add_class {definition : ClassDef} (h : Among classes.next definition.Sound)
    (hbase : ∀ base, definition.base = some base → base < classes.next ∧
      (classes.get base).kind = .regular ∧ definition.kind = .regular)
    (hnodup : definition.fields.names.Nodup) :
    Keeps classes (fun _ => True) (addClass definition) := by
  intro state hgrows hshaped
  let after : Heap :=
    { state.world.heap with classes := state.world.heap.classes.push definition }
  have hmore : state.classes.Grows after.classes := Store.grows_push _ _
  have hnext : after.classes.next = state.classes.next + 1 := Store.next_push _ _
  refine .ok hmore ⟨?_, fun _ hcover => ⟨?_, ?_⟩, fun hnamed => ?_⟩ fun _ _ => trivial
  · refine hshaped.heap.push_class (fun base hsome => ?_) hnodup
    obtain ⟨hexists, hregular, hkind⟩ := hbase base hsome
    refine ⟨hexists.trans_le hgrows.next_le, ?_, hkind⟩
    exact (congrArg ClassDef.kind (hgrows.get_eq hexists)).trans hregular
  · exact hshaped.scope_sound _ (hcover.mono hmore.next_le)
  · have hold := hcover.mono hmore.next_le
    exact (hshaped.heap_sound _ hold).push_class (h _ (hold.mono hgrows.next_le))
  · rename_i name id
    change (state.world.classes.insert definition.name state.classes.next).get? name = some id
      at hnamed
    show id < after.classes.next
    rw [Table.get?_insert] at hnamed
    rw [hnext]
    split at hnamed
    · cases hnamed
      exact Nat.lt_succ_self _
    · exact Nat.lt_succ_of_lt (hshaped.named hnamed)

theorem keeps_define_function (name : String) (parameters : List String) (exprs : List Expr) :
    Keeps classes Value.Sound (defineFunction name parameters exprs) := by
  refine (keeps_make_function name parameters exprs).bind fun id _ _ _ => ?_
  refine Keeps.bind (keeps_modify_world (fun _ => rfl) fun _ => rfl) fun _ _ _ _ => ?_
  exact keeps_pure fun _ _ => trivial

theorem keeps_define_struct (name : String) (fields : List String) :
    Keeps classes Value.Sound (defineStruct name fields) := by
  refine Keeps.bind (keeps_add_class (fun _ _ => Table.Sound.of_list ?_) nofun
    (Table.nodup_names_of_list _)) fun _ _ _ _ => ?_
  · exact List.forall_mem_map.mpr fun _ _ => trivial
  · exact (keeps_record _).bind fun _ _ _ _ => keeps_pure fun _ _ => trivial

theorem keeps_define_enum (name : String) (variants : List String) :
    Keeps classes Value.Sound (defineEnum name variants) := by
  have hsound : Among classes.next (ClassDef.Sound ⟨name, .enum, none, .empty, .empty, variants⟩) :=
    fun _ _ => Table.Sound.empty
  refine Keeps.bind (keeps_add_class hsound nofun List.nodup_nil) fun _ _ _ _ => ?_
  exact (keeps_record _).bind fun _ _ _ _ => keeps_pure fun _ _ => trivial

theorem keeps_enum_variant (enumName variant : String) :
    Keeps classes Value.Sound (enumVariant enumName variant) := by
  refine (keeps_lookup_class enumName).bind fun id _ _ _ => ?_
  refine keeps_heap fun heap _ _ _ => ?_
  dsimp only
  split
  · exact keeps_raise_then _ _
  · exact keeps_class_attribute id variant

theorem keeps_import_module (target : String) :
    Keeps classes Value.Sound (importModule target) := by
  refine (keeps_record _).bind fun _ _ _ _ => ?_
  refine Keeps.bind (keeps_perform (Action.within_new_dict _).spares fun _ _ =>
    Action.keeps_new_dict .empty) fun dict _ _ hdict => ?_
  exact (keeps_bind_name _ hdict).bind fun _ _ _ _ => keeps_pure fun _ _ => trivial

/-! ## Input and output -/

theorem keeps_on_console {α : Type} (use : Console → Except StreamFault α × Console) :
    Keeps classes (fun _ => True) (onConsole use) := by
  refine keeps_get fun state _ _ => ?_
  rcases use state.world.console with ⟨result, console⟩
  refine Keeps.bind (keeps_modify_world (fun _ => rfl) fun _ => rfl) fun _ _ _ _ => ?_
  cases result with
  | ok result => exact keeps_pure fun _ _ => trivial
  | error fault =>
      cases fault with
      | system reason => exact keeps_raise _ _
      | closed | undecodable | unencodable => exact keeps_throw fun _ _ => trivial

theorem keeps_print (items : List Value) : Keeps classes Value.Sound (print items) := by
  refine Keeps.bind (keeps_perform (Application.spares (.function .print items) rfl) fun _ _ =>
    Action.keeps_map_m fun item _ => Action.keeps_display item) fun texts _ _ _ => ?_
  exact (keeps_on_console _).bind fun _ _ _ _ => keeps_pure fun _ _ => trivial

theorem keeps_input (items : List Value) : Keeps classes Value.Sound (input items) := by
  let read : Eval Value := do
    let line ← readLine
    if line.isEmpty then raise .eofError "EOF when reading a line"
    return .str (String.ofList (Text.trimRightBy (fun c => c = '\r' || c = '\n') line))
  have hread (classes : Store ClassDef) : Keeps classes Value.Sound read := by
    refine (keeps_on_console _).bind fun line _ _ _ => ?_
    split
    · exact keeps_raise_then _ _
    · exact keeps_pure fun _ _ => trivial
  refine Keeps.bind (keeps_perform (Builtin.within_check_count _ _ _ _).spares fun _ _ =>
    Builtin.keeps_check_count _ _ _ _) fun _ _ _ _ => ?_
  split
  · rename_i prompt rest
    refine Keeps.bind (keeps_perform (Application.spares (.function .input (prompt :: rest)) rfl)
      fun _ _ => Action.keeps_display prompt) fun text _ _ _ => ?_
    exact (keeps_on_console _).bind fun _ _ _ _ => hread _
  · exact hread _

theorem keeps_call_builtin (function : BuiltinFunction) {items : List Value}
    (h : Among classes.next (∀ item ∈ items, item.Sound)) :
    Keeps classes Value.Sound (callBuiltin function items) := by
  have hcompute (heffect : (Builtin.compute function items).effect =
      (Application.function function items).effect) :
      Keeps classes Value.Sound (perform (Builtin.compute function items)) :=
    keeps_perform (Application.spares _ heffect) fun _ hcover =>
      Builtin.keeps_compute function (h _ hcover)
  cases function with
  | print => exact keeps_print items
  | input => exact keeps_input items
  | _ => exact hcompute rfl

/-! ## Calls -/

/-- The end of a call or program. -/
theorem Kept.at_boundary {run : Eval Value} {state : EvalState}
    (h : Kept classes Value.Sound (run state)) :
    Kept classes Value.Sound (atBoundary run state) := by
  unfold atBoundary
  generalize run state = outcome at h ⊢
  cases h with
  | ok hgrows hshaped hgood => exact .ok hgrows hshaped hgood
  | error hgrows hshaped hexit =>
      rename_i exit after
      cases exit with
      | jump jump =>
          cases jump with
          | returning value => exact .ok hgrows hshaped hexit
          | breaking => exact (keeps_raise _ _ after (.refl _) hshaped).of_grows hgrows
          | continuing => exact (keeps_raise _ _ after (.refl _) hshaped).of_grows hgrows
      | thrown error => exact .error hgrows hshaped hexit
      | fault fault => exact .error hgrows hshaped hexit
      | outOfFuel => exact .error hgrows hshaped hexit

/-- The caller's scope is there again after a call. -/
theorem Kept.in_frame {run : Eval Value} {frame : Scope} {state : EvalState}
    (hstate : state.Shaped) (h : Kept state.classes Value.Sound (run (state.entering frame))) :
    Kept state.classes Value.Sound (inFrame frame run state) := by
  rw [in_frame_run]
  generalize run (state.entering frame) = outcome at h ⊢
  have hreturn {left : EvalState} (hgrows : state.classes.Grows left.classes)
      (hleft : left.Shaped) : (state.returning left).Shaped :=
    hleft.with_scope rfl rfl (hstate.scope_sound.mono hgrows.next_le)
  cases h with
  | ok hgrows hshaped hgood => exact .ok hgrows (hreturn hgrows hshaped) hgood
  | error hgrows hshaped hexit => exact .error hgrows (hreturn hgrows hshaped) hexit

variable {ev : Evaluator} (hev : ∀ expr classes, Keeps classes Value.Sound (ev expr))
include hev

theorem keeps_statements (exprs : List Expr) {last : Value}
    (hlast : Among classes.next last.Sound) :
    Keeps classes Value.Sound (statements ev exprs last) := by
  induction exprs generalizing classes last with
  | nil => exact keeps_pure hlast
  | cons expr exprs ih => exact (hev expr _).bind fun value _ _ hvalue => ih hvalue

theorem keeps_body (exprs : List Expr) : Keeps classes Value.Sound (body ev exprs) :=
  keeps_statements hev exprs fun _ _ => trivial

theorem keeps_values (exprs : List Expr) :
    Keeps classes (fun items => ∀ item ∈ items, item.Sound) (values ev exprs) := by
  induction exprs generalizing classes with
  | nil => exact keeps_pure fun _ => nofun
  | cons expr exprs ih =>
      refine (hev expr _).bind fun value _ _ hvalue => ih.bind fun items _ hgrows hitems => ?_
      exact keeps_pure fun _ hcover =>
        List.forall_mem_cons.mpr ⟨hvalue _ (hcover.mono hgrows.next_le), hitems _ hcover⟩

theorem keeps_condition (expr : Expr) : Keeps classes (fun _ => True) (condition ev expr) :=
  (hev expr _).bind fun value _ _ _ =>
    keeps_perform (Action.within_is_truthy value).spares fun _ _ =>
      Action.keeps_is_truthy value

theorem keeps_call_function (id : FunctionId) {items : List Value}
    (hitems : Among classes.next (∀ item ∈ items, item.Sound)) (receiver : Option InstanceId) :
    Keeps classes Value.Sound (callFunction ev id items receiver) := by
  intro state hgrows hshaped
  rw [call_function_run]
  dsimp only
  split
  · exact keeps_raise _ _ state (.refl _) hshaped
  · split
    · exact keeps_raise _ _ state (.refl _) hshaped
    · refine Kept.at_boundary (.in_frame hshaped ?_)
      have hframe : Among state.classes.next (state.frame id receiver items).Sound :=
        fun _ hcover =>
          (hshaped.sound _ hcover).frame id receiver (hitems _ (hcover.mono hgrows.next_le))
      exact keeps_body hev _ (state.entering _) (.refl _) (hshaped.with_scope rfl rfl hframe)

omit hev in
/-- An instance is made of a class that exists. -/
theorem keeps_new_instance {contents : Instance} (howner : contents.classId < classes.next)
    (hfields : (classes.get contents.classId).kind = .struct →
      contents.fields.names = (classes.get contents.classId).fields.names)
    (hsound : Among classes.next contents.Sound) :
    Keeps classes (fun _ => True) (perform (Action.newInstance contents)) := by
  intro state hgrows hshaped
  have hclass : state.world.heap.classDef contents.classId = classes.get contents.classId :=
    hgrows.get_eq howner
  refine .ok (.refl _) ⟨hshaped.heap.push_instance (howner.trans_le hgrows.next_le) ?_,
    fun _ hcover => ⟨hshaped.scope_sound _ hcover, ?_⟩, hshaped.named⟩ fun _ _ => trivial
  · rw [hclass]
    exact hfields
  · exact (hshaped.heap_sound _ hcover).push_instance (hsound _ (hcover.mono hgrows.next_le))

theorem keeps_instantiate {id : ClassId} (hid : id < classes.next) {items : List Value}
    (hitems : Among classes.next (∀ item ∈ items, item.Sound)) :
    Keeps classes Value.Sound (instantiate ev id items) := by
  refine keeps_heap fun heap hgrows hshaped hheap => ?_
  have hexists : id < heap.classes.next := hid.trans_le hgrows.next_le
  have hitems' := hitems.mono hgrows.next_le
  dsimp only
  split
  · exact keeps_raise _ _
  · split
    · exact keeps_raise_then _ _
    · rename_i hcount
      have hnames : (((heap.classDef id).fields.names.zip items).map (·.1)) =
          (heap.classDef id).fields.names := by
        refine List.map_fst_zip ?_
        rw [not_not.mp hcount]
        exact (List.length_map _).le
      refine Keeps.bind (keeps_new_instance hexists (fun _ => ?_) fun _ hcover => ?_)
        fun object _ _ _ => keeps_pure fun _ _ => trivial
      · refine (Table.names_of_list ?_).trans hnames
        rw [hnames]
        exact hshaped.nodup id
      · exact Table.Sound.of_list fun pair hpair =>
          hitems' _ hcover pair.2 (List.of_mem_zip hpair).2
  · rename_i hregular
    have hfields : Among heap.classes.next (Instance.Sound ⟨id, heap.fieldDefaults id⟩) :=
      fun _ hcover => (hheap _ hcover).field_defaults id
    refine Keeps.bind (keeps_new_instance hexists (fun hstruct => ?_) hfields)
      fun object _ hgrows' _ => ?_
    · cases hregular.symm.trans hstruct
    · split
      · exact (keeps_call_function hev _ (hitems'.mono hgrows'.next_le) _).bind
          fun _ _ _ _ => keeps_pure fun _ _ => trivial
      · split
        · exact keeps_pure fun _ _ => trivial
        · exact keeps_raise _ _

theorem keeps_call_value {callee : Value} (hcallee : Among classes.next callee.Sound)
    {items : List Value} (hitems : Among classes.next (∀ item ∈ items, item.Sound)) :
    Keeps classes Value.Sound (callValue ev callee items) := by
  cases callee with
  | function id => exact keeps_call_function hev id hitems none
  | boundMethod mark receiver id => exact keeps_call_function hev id hitems (some receiver)
  | builtinMethod mark object method =>
      have hobject : Among classes.next object.Sound := hcallee
      exact keeps_perform (Application.spares (.method object method items) rfl) fun _ hcover =>
        Builtin.keeps_call_method (hobject _ hcover) method (hitems _ hcover)
  | builtin function => exact keeps_call_builtin function hitems
  | classObject id =>
      have hid : Among classes.next (KnownClasses.known id) := hcallee
      exact keeps_instantiate hev hid.lt hitems
  | _ => exact keeps_heap fun heap _ _ _ => keeps_raise _ _

theorem keeps_call (callee : Expr) (items : List Expr) :
    Keeps classes Value.Sound (call ev callee items) := by
  refine keeps_get fun state _ _ => ?_
  dsimp only
  split
  · exact (keeps_values hev items).bind fun arguments _ _ harguments =>
      keeps_call_function hev _ harguments none
  · refine (hev callee _).bind fun target _ _ htarget => ?_
    exact (keeps_values hev items).bind fun arguments _ hgrows harguments =>
      keeps_call_value hev (htarget.mono hgrows.next_le) harguments

theorem keeps_method_call (object : Expr) (method : String) (items : List Expr) :
    Keeps classes Value.Sound (methodCall ev object method items) := by
  refine (hev object _).bind fun receiver _ _ hreceiver => ?_
  refine (keeps_values hev items).bind fun arguments now hgrows harguments => ?_
  have hreceiver' : Among now.next receiver.Sound := hreceiver.mono hgrows.next_le
  have hcall : Keeps now Value.Sound
      (getAttribute receiver method >>= fun target => callValue ev target arguments) :=
    (keeps_get_attribute hreceiver' method).bind fun target _ hgrows htarget =>
      keeps_call_value hev htarget (harguments.mono hgrows.next_le)
  split
  · exact hcall
  · exact hcall
  · exact keeps_perform (Application.spares (.method receiver method arguments) rfl)
      fun _ hcover =>
        Builtin.keeps_call_method (hreceiver' _ hcover) method (harguments _ hcover)

/-! ## Loops and branches -/

theorem keeps_loop_round (exprs : List Expr) :
    Keeps classes (fun pair => pair.1.Sound) (loopRound ev exprs) := by
  intro state hgrows hshaped
  have hkept := keeps_body hev exprs state hgrows hshaped
  unfold loopRound
  generalize body ev exprs state = outcome at hkept ⊢
  cases hkept with
  | ok hgrows hshaped hgood => exact .ok hgrows hshaped hgood
  | error hgrows hshaped hexit =>
      rename_i exit after
      cases exit with
      | jump jump =>
          cases jump with
          | returning value => exact .error hgrows hshaped hexit
          | breaking => exact .ok hgrows hshaped fun _ _ => trivial
          | continuing => exact .ok hgrows hshaped fun _ _ => trivial
      | thrown error => exact .error hgrows hshaped hexit
      | fault fault => exact .error hgrows hshaped hexit
      | outOfFuel => exact .error hgrows hshaped hexit

theorem keeps_while_rounds (test : Expr) (exprs : List Expr) (fuel : Nat) {last : Value}
    (hlast : Among classes.next last.Sound) :
    Keeps classes Value.Sound (whileRounds ev test exprs fuel last) := by
  induction fuel generalizing classes last with
  | zero => exact keeps_throw fun _ _ => trivial
  | succ fuel ih =>
      refine (keeps_condition hev test).bind fun holds _ hgrows _ => ?_
      split
      · refine (keeps_loop_round hev exprs).bind fun ⟨value, ends⟩ _ _ hvalue => ?_
        dsimp only
        split
        · exact keeps_pure hvalue
        · exact ih hvalue
      · exact keeps_pure (hlast.mono hgrows.next_le)

theorem keeps_for_rounds (binder : String) (exprs : List Expr) {items : List Value}
    (hitems : Among classes.next (∀ item ∈ items, item.Sound)) {last : Value}
    (hlast : Among classes.next last.Sound) :
    Keeps classes Value.Sound (forRounds ev binder exprs items last) := by
  induction items generalizing classes last with
  | nil => exact keeps_pure hlast
  | cons item items ih =>
      have hfirst : Among classes.next item.Sound :=
        fun _ hcover => hitems _ hcover item List.mem_cons_self
      have hrest : Among classes.next (∀ other ∈ items, other.Sound) :=
        fun _ hcover other hother => hitems _ hcover other (List.mem_cons_of_mem _ hother)
      refine (keeps_bind_name binder hfirst).bind fun _ _ hgrows _ => ?_
      refine (keeps_loop_round hev exprs).bind fun ⟨value, ends⟩ _ hgrows' hvalue => ?_
      dsimp only
      split
      · exact keeps_pure hvalue
      · exact ih (hrest.mono (hgrows.trans hgrows').next_le) hvalue

/-- The items that a loop or comprehension goes through. -/
theorem keeps_source_items (iterable : Expr) :
    Keeps classes (fun items => ∀ item ∈ items, item.Sound) (sourceItems ev iterable) :=
  (hev iterable _).bind fun source _ _ hsource =>
    keeps_perform (Builtin.within_items_of source).spares fun _ hcover =>
      Builtin.keeps_items_of (hsource _ hcover)

theorem keeps_for_loop (binder : String) (iterable : Expr) (exprs : List Expr) :
    Keeps classes Value.Sound (forLoop ev binder iterable exprs) := by
  refine (hev iterable _).bind fun source _ _ hsource => ?_
  refine Keeps.bind (keeps_perform (Builtin.within_items_of source).spares fun _ hcover =>
    Builtin.keeps_items_of (hsource _ hcover)) fun items _ _ hitems => ?_
  exact keeps_for_rounds hev binder exprs hitems fun _ _ => trivial

theorem keeps_if_then (test : Expr) (thenBody : List Expr) (elseBranch : Option Expr) :
    Keeps classes Value.Sound (ifThen ev test thenBody elseBranch) := by
  refine (keeps_condition hev test).bind fun holds _ _ _ => ?_
  split
  · exact keeps_body hev thenBody
  · cases elseBranch with
    | none => exact keeps_pure fun _ _ => trivial
    | some branch => exact hev branch _

theorem keeps_match_arms (subject : Value) (arms : List (Expr × Expr)) :
    Keeps classes Value.Sound (matchArms ev subject arms) := by
  fun_induction matchArms ev subject arms generalizing classes with
  | case1 => exact keeps_pure fun _ _ => trivial
  | case2 result rest => exact hev result _
  | case3 pattern result rest hname ih =>
      refine (hev pattern _).bind fun value _ _ _ => ?_
      refine Keeps.bind (keeps_perform (Action.within_equal subject value).spares fun _ _ =>
        Action.keeps_equal subject value) fun same _ _ _ => ?_
      split
      · exact hev result _
      · exact ih

theorem keeps_binary (operator : BinaryOperator) (left right : Expr) :
    Keeps classes Value.Sound (binary ev operator left right) := by
  unfold binary
  split
  · refine (keeps_condition hev left).bind fun test _ _ _ => ?_
    split
    · exact (keeps_condition hev right).bind fun _ _ _ _ => keeps_pure fun _ _ => trivial
    · exact keeps_pure fun _ _ => trivial
  · refine (keeps_condition hev left).bind fun test _ _ _ => ?_
    split
    · exact keeps_pure fun _ _ => trivial
    · exact (keeps_condition hev right).bind fun _ _ _ _ => keeps_pure fun _ _ => trivial
  · refine (hev left _).bind fun x _ _ hx => (hev right _).bind fun y _ hgrows hy => ?_
    exact keeps_perform (Application.spares (.operator operator x y) rfl) fun _ hcover =>
      operator.keeps_apply (hx _ (hcover.mono hgrows.next_le)) (hy _ hcover)

/-! ## Errors -/

theorem keeps_run_handler (caught : ErrorId) (binder : Option String) (handler : List Expr) :
    Keeps classes Value.Sound (runHandler ev caught binder handler) := by
  refine keeps_heap fun heap _ _ _ => ?_
  refine (keeps_record _).bind fun _ _ _ _ => ?_
  cases binder with
  | none => exact keeps_body hev handler
  | some name =>
      exact Keeps.bind (keeps_bind_name name fun _ _ => trivial) fun _ _ _ _ =>
        keeps_body hev handler

omit hev in
theorem keeps_throw_linked (caught inner : ErrorId) :
    Keeps classes Value.Sound (throwLinked caught inner) := by
  have hthrow (classes : Store ClassDef) : Keeps classes Value.Sound (throw (.thrown inner)) :=
    keeps_throw fun _ _ => trivial
  refine keeps_heap fun heap _ _ _ => ?_
  split
  · exact Keeps.bind (keeps_perform (Application.spares (.context inner caught) rfl) fun _ _ =>
      Action.keeps_set_error _ _) fun _ _ _ _ => hthrow _
  · exact hthrow _

theorem keeps_handle (caught : ErrorId) (binder : Option String) (handler : List Expr) :
    Keeps classes Value.Sound (handle ev caught binder handler) := by
  intro state hgrows hshaped
  have hkept := keeps_run_handler hev caught binder handler state hgrows hshaped
  rw [handle_run]
  generalize runHandler ev caught binder handler state = outcome at hkept ⊢
  cases hkept with
  | ok hgrows hshaped hgood => exact .ok hgrows hshaped hgood
  | error hgrows hshaped hexit =>
      rename_i exit after
      cases exit with
      | thrown inner =>
          exact (keeps_throw_linked caught inner after (.refl _) hshaped).of_grows hgrows
      | jump jump => exact .error hgrows hshaped hexit
      | fault fault => exact .error hgrows hshaped hexit
      | outOfFuel => exact .error hgrows hshaped hexit

theorem keeps_try_catch (exprs : List Expr) (binder : Option String) (handler : List Expr) :
    Keeps classes Value.Sound (tryCatch ev exprs binder handler) := by
  intro state hgrows hshaped
  have hkept := keeps_body hev exprs state hgrows hshaped
  have hhandle (error : ErrorId) (classes : Store ClassDef) :
      Keeps classes Value.Sound (handle ev error binder handler) :=
    keeps_handle hev error binder handler
  unfold tryCatch
  generalize body ev exprs state = outcome at hkept ⊢
  cases hkept with
  | ok hgrows hshaped hgood => exact .ok hgrows hshaped hgood
  | error hgrows hshaped hexit =>
      rename_i exit after
      cases exit with
      | thrown error => exact (hhandle error _ after (.refl _) hshaped).of_grows hgrows
      | jump jump => exact .error hgrows hshaped hexit
      | outOfFuel => exact .error hgrows hshaped hexit
      | fault fault =>
          cases fault with
          | recursion =>
              have hnew : (Action.newError .recursionError [recursionMessage]).Within .none :=
                Action.within_new_error _ _
              have hrecover : Keeps after.classes Value.Sound
                  (perform (Action.newError .recursionError [recursionMessage]) >>= fun error =>
                    handle ev error binder handler) :=
                Keeps.bind (keeps_perform hnew.spares fun _ _ =>
                  Action.keeps_new_error .recursionError [recursionMessage]) fun error now _ _ =>
                    hhandle error now
              exact (hrecover after (.refl _) hshaped).of_grows hgrows
          | _ => exact .error hgrows hshaped hexit

theorem keeps_throw_value (value : Expr) (cause : Option Expr) :
    Keeps classes Value.Sound (throwValue ev value cause) := by
  refine (hev value _).bind fun thrown _ _ _ => ?_
  refine Keeps.bind (keeps_perform (Builtin.within_to_error thrown).spares fun _ _ =>
    Builtin.keeps_to_error thrown) fun error _ _ _ => ?_
  cases cause with
  | none => exact keeps_throw fun _ _ => trivial
  | some cause =>
      refine (hev cause _).bind fun causeValue _ _ _ => ?_
      refine Keeps.bind (keeps_perform (Builtin.within_to_cause causeValue).spares fun _ _ =>
        Builtin.keeps_to_cause causeValue) fun linked _ _ _ => ?_
      exact Keeps.bind (keeps_perform (Application.spares (.cause error linked) rfl) fun _ _ =>
        Action.keeps_set_error error _) fun _ _ _ _ => keeps_throw fun _ _ => trivial

theorem keeps_return_value (value : Option Expr) :
    Keeps classes Value.Sound (returnValue ev value) := by
  cases value with
  | none => exact keeps_throw fun _ _ => trivial
  | some expr => exact (hev expr _).bind fun result _ _ hresult => keeps_throw hresult

/-! ## Assignments and definitions -/

theorem keeps_destructure (names : List String) (expr : Expr) :
    Keeps classes Value.Sound (destructure ev names expr) := by
  refine (hev expr _).bind fun value _ _ hvalue => ?_
  refine Keeps.bind (keeps_perform (Builtin.within_items_of value).spares fun _ hcover =>
    Builtin.keeps_items_of (hvalue _ hcover)) fun items _ hgrows hitems => ?_
  by_cases hfew : items.length < names.length
  · simp only [hfew, if_true]
    exact keeps_raise_then _ _
  · simp only [hfew, if_false]
    split
    · exact keeps_raise_then _ _
    · refine Keeps.bind (keeps_bind_all fun _ hcover pair hpair => ?_) fun _ _ hgrows' _ =>
        keeps_pure (hvalue.mono (hgrows.trans hgrows').next_le)
      exact hitems _ hcover pair.2 (List.of_mem_zip hpair).2

theorem keeps_assign_index (collection index value : Expr) :
    Keeps classes Value.Sound (assignIndex ev collection index value) := by
  refine (hev collection _).bind fun collection _ _ _ => ?_
  refine (hev index _).bind fun index _ _ hindex => ?_
  refine (hev value _).bind fun value _ hgrows hvalue => ?_
  refine Keeps.bind (keeps_perform (Application.spares (.setItem collection index value) rfl)
    fun _ hcover => Builtin.keeps_set_item collection (hindex _ (hcover.mono hgrows.next_le))
      (hvalue _ hcover)) fun _ _ hgrows' _ => ?_
  exact keeps_pure (hvalue.mono hgrows'.next_le)

theorem keeps_assign_attribute (object : Expr) (name : String) (value : Expr) :
    Keeps classes Value.Sound (assignAttribute ev object name value) := by
  refine (hev object _).bind fun object _ _ _ => (hev value _).bind fun value _ _ hvalue => ?_
  exact (keeps_set_attribute object name hvalue).bind fun _ _ hgrows _ =>
    keeps_pure (hvalue.mono hgrows.next_le)

/-- Members change neither the sort of a class nor its base, and declare no field twice. -/
theorem keeps_class_members (members : List Expr) {definition : ClassDef}
    (hdefinition : Among classes.next definition.Sound)
    (hnodup : definition.fields.names.Nodup) :
    Keeps classes (fun complete => complete.Sound ∧ complete.kind = definition.kind ∧
        complete.base = definition.base ∧ complete.fields.names.Nodup)
      (classMembers ev members definition) := by
  fun_induction classMembers ev members definition generalizing classes with
  | case1 definition => exact keeps_pure fun _ hcover => ⟨hdefinition _ hcover, rfl, rfl, hnodup⟩
  | case2 name parameters exprs rest definition ih =>
      exact (keeps_make_function name parameters exprs).bind fun id _ hgrows _ =>
        ih id (hdefinition.mono hgrows.next_le) hnodup
  | case3 name value rest definition ih | case4 name value rest definition ih
  | case5 name _ value rest definition ih =>
      refine (hev value _).bind fun default _ hgrows hdefault => ih default (fun _ hcover => ?_)
        (Table.nodup_names_insert hnodup name default)
      exact Table.Sound.insert (hdefinition _ (hcover.mono hgrows.next_le)) name
        (hdefault _ hcover)
  | case6 => exact keeps_raise _ _

/-- A class is derived from one that exists and is no struct or enumeration. -/
theorem keeps_define_class (name : String) (bases : List String) (members : List Expr) :
    Keeps classes Value.Sound (defineClass ev name bases members) := by
  have hrest (classes : Store ClassDef) (base : Option (ClassId × String))
      (hbase : ∀ id ∈ base.map (·.1), id < classes.next ∧ (classes.get id).kind = .regular) :
      Keeps classes Value.Sound (do
        let definition ←
          classMembers ev members ⟨name, .regular, base.map (·.1), .empty, .empty, []⟩
        addClass definition
        record (.classDefined name (base.map (·.2)))
        return Value.null) := by
    refine Keeps.bind (keeps_class_members hev members (fun _ _ => Table.Sound.empty)
      List.nodup_nil) fun definition now hgrows hdefinition => ?_
    obtain ⟨hkind, hsame, hnodup⟩ := Among.holds fun known hcover => (hdefinition known hcover).2
    refine Keeps.bind (keeps_add_class (fun known hcover => (hdefinition known hcover).1)
      (fun id hsome => ?_) hnodup) fun _ _ _ _ => ?_
    · obtain ⟨hexists, hregular⟩ := hbase id (hsame.symm.trans hsome)
      exact ⟨hexists.trans_le hgrows.next_le,
        (congrArg ClassDef.kind (hgrows.get_eq hexists)).trans hregular, hkind⟩
    · exact (keeps_record _).bind fun _ _ _ _ => keeps_pure fun _ _ => trivial
  unfold defineClass
  split
  · exact hrest classes none nofun
  · refine (keeps_lookup_class _).bind fun id _ _ hid => ?_
    refine keeps_heap fun heap hgrows _ _ => ?_
    dsimp only
    split
    · exact keeps_raise_then _ _
    · rename_i hregular
      refine hrest heap.classes (some (id, (heap.classDef id).name)) fun base hsome => ?_
      cases hsome
      exact ⟨hid.lt.trans_le hgrows.next_le, not_not.mp hregular⟩

/-- The fields of a new instance of a struct are those that the struct declares. -/
theorem keeps_record_fields (definition : ClassDef) (fields : List (String × Expr))
    {bound : Table Value} (hbound : Among classes.next bound.Sound)
    (hnames : definition.kind = .struct → bound.names = definition.fields.names) :
    Keeps classes (fun complete => complete.Sound ∧
        (definition.kind = .struct → complete.names = definition.fields.names))
      (recordFields ev definition fields bound) := by
  induction fields generalizing classes bound with
  | nil => exact keeps_pure fun _ hcover => ⟨hbound _ hcover, hnames⟩
  | cons field fields ih =>
      unfold recordFields
      split
      · exact keeps_raise_then _ _
      · rename_i hallowed
        refine (hev field.2 _).bind fun value _ hgrows hvalue => ih (fun _ hcover => ?_) ?_
        · exact (hbound _ (hcover.mono hgrows.next_le)).insert field.1 (hvalue _ hcover)
        · intro hstruct
          have hdeclared : definition.fields.contains field.1 = true := by
            simpa [hstruct] using hallowed
          rw [Table.contains_iff, ← hnames hstruct] at hdeclared
          exact (Table.names_insert_of_mem hdeclared value).trans (hnames hstruct)

theorem keeps_new_record (className : String) (fields : List (String × Expr)) :
    Keeps classes Value.Sound (newRecord ev className fields) := by
  refine (keeps_lookup_class className).bind fun id _ _ hid => ?_
  refine keeps_heap fun heap hgrows hshaped hheap => ?_
  have hexists : id < heap.classes.next := hid.lt.trans_le hgrows.next_le
  dsimp only
  split
  · exact keeps_raise_then _ _
  · refine Keeps.bind (keeps_record_fields hev (heap.classDef id) fields
      (fun known hcover => (hheap known hcover).field_defaults id) hshaped.names_field_defaults)
      fun bound now hgrows' hbound => ?_
    have hnames := Among.holds fun known hcover => (hbound known hcover).2
    have hsame : now.get id = heap.classDef id := hgrows'.get_eq hexists
    refine Keeps.bind (keeps_new_instance (hexists.trans_le hgrows'.next_le) ?_
      fun known hcover => (hbound known hcover).1) fun object _ _ _ =>
        keeps_pure fun _ _ => trivial
    show (now.get id).kind = .struct → bound.names = (now.get id).fields.names
    rw [hsame]
    exact hnames

/-! ## Collections -/

theorem keeps_set_items (exprs : List Expr) {keys : List Value}
    (hkeys : Among classes.next (Keys.Sound keys)) :
    Keeps classes Keys.Sound (setItems ev exprs keys) := by
  induction exprs generalizing classes keys with
  | nil => exact keeps_pure hkeys
  | cons expr exprs ih =>
      refine (hev expr _).bind fun key _ hgrows hkey => ?_
      refine Keeps.bind (keeps_perform (Action.within_ensure_hashable key).spares fun _ _ =>
        Action.keeps_ensure_hashable key) fun _ _ hgrows' hhashable => ih fun _ hcover => ?_
      exact (hkeys _ (hcover.mono (hgrows.trans hgrows').next_le)).insert (hhashable _ hcover)
        (hkey _ (hcover.mono hgrows'.next_le))

theorem keeps_dict_pairs (pairs : List (Expr × Expr)) {dict : Dict}
    (hdict : Among classes.next dict.Sound) :
    Keeps classes Dict.Sound (dictPairs ev pairs dict) := by
  induction pairs generalizing classes dict with
  | nil => exact keeps_pure hdict
  | cons pair pairs ih =>
      refine (hev pair.1 _).bind fun key _ hgrows hkey => ?_
      refine Keeps.bind (keeps_perform (Action.within_ensure_hashable key).spares fun _ _ =>
        Action.keeps_ensure_hashable key) fun _ _ hgrows' hhashable => ?_
      refine (hev pair.2 _).bind fun value _ hgrows'' hvalue => ih fun _ hcover => ?_
      have hcover' := hcover.mono hgrows''.next_le
      have hcover'' := hcover'.mono hgrows'.next_le
      exact (hdict _ (hcover''.mono hgrows.next_le)).insert (hhashable _ hcover')
        (hkey _ hcover'') (hvalue _ hcover)

theorem keeps_comprehension_items (element : Expr) (binder : String) {items done : List Value}
    (hitems : Among classes.next (∀ item ∈ items, item.Sound))
    (hdone : Among classes.next (∀ value ∈ done, value.Sound)) :
    Keeps classes (fun found => ∀ value ∈ found, value.Sound)
      (comprehensionItems ev element binder items done) := by
  induction items generalizing classes done with
  | nil =>
      exact keeps_pure fun _ hcover value hvalue =>
        hdone _ hcover value (List.mem_reverse.mp hvalue)
  | cons item items ih =>
      have hfirst : Among classes.next item.Sound :=
        fun _ hcover => hitems _ hcover item List.mem_cons_self
      have hrest : Among classes.next (∀ other ∈ items, other.Sound) :=
        fun _ hcover other hother => hitems _ hcover other (List.mem_cons_of_mem _ hother)
      refine (keeps_bind_name binder hfirst).bind fun _ _ hgrows _ => ?_
      refine (hev element _).bind fun value _ hgrows' hvalue => ?_
      have hle := (hgrows.trans hgrows').next_le
      exact ih (hrest.mono hle) fun _ hcover =>
        List.forall_mem_cons.mpr ⟨hvalue _ hcover, hdone _ (hcover.mono hle)⟩

/-- The elements are evaluated in the scope from before, on the heap that the items left. -/
theorem keeps_comprehension (element : Expr) (binder : String) (iterable : Expr) :
    Keeps classes Value.Sound (comprehension ev element binder iterable) := by
  intro state hgrows hshaped
  have hsource := keeps_source_items hev iterable state hgrows hshaped
  rw [comprehension_run]
  generalize sourceItems ev iterable state = outcome at hsource ⊢
  cases hsource with
  | error hgrows hshaped hexit => exact .error hgrows hshaped hexit
  | ok hgrows hmiddle hitems =>
      rename_i items middle
      dsimp only
      have hcopy : EvalState.Shaped { middle with scope := state.scope } :=
        hmiddle.with_scope rfl rfl (hshaped.scope_sound.mono hgrows.next_le)
      have hnone : Among middle.classes.next (∀ value ∈ ([] : List Value), value.Sound) :=
        fun _ _ => nofun
      have hfound := keeps_comprehension_items hev element binder hitems hnone
        { middle with scope := state.scope } (.refl _) hcopy
      have hback {left : EvalState} (hgrows' : middle.classes.Grows left.classes)
          (hleft : left.Shaped) : EvalState.Shaped { left with scope := middle.scope } :=
        hleft.with_scope rfl rfl (hmiddle.scope_sound.mono hgrows'.next_le)
      generalize comprehensionItems ev element binder items []
        { middle with scope := state.scope } = found at hfound ⊢
      cases hfound with
      | error hgrows' hleft hexit => exact .error (hgrows.trans hgrows') (hback hgrows' hleft) hexit
      | ok hgrows' hleft hfound =>
          refine Kept.of_grows (keeps_perform (Action.within_new_list _).spares
            (fun _ hcover => ?_) _ (.refl _) (hback hgrows' hleft)) (hgrows.trans hgrows')
          exact Action.keeps_new_list (.of_list (hfound _ hcover))

/-! ## All rules -/

/-- The rule of every construct. -/
theorem keeps_step (fuel : Nat) (expr : Expr) :
    Keeps classes Value.Sound (step ev fuel expr) := by
  have hnull (classes : Store ClassDef) : Keeps classes Value.Sound (pure .null) :=
    keeps_pure fun _ _ => trivial
  cases expr with
  | int | string | bytes | bool | null => exact keeps_pure fun _ _ => trivial
  | float x =>
      exact keeps_perform (Action.within_new_float x).spares fun _ _ => Action.keeps_new_float x
  | imaginary x =>
      exact keeps_perform (Action.within_new_complex 0.0 x).spares fun _ _ =>
        Action.keeps_new_complex 0.0 x
  | name name => exact keeps_lookup name
  | binary operator left right => exact keeps_binary hev operator left right
  | unary operator operand =>
      exact (hev operand _).bind fun value _ _ _ =>
        keeps_perform (operator.within_apply value).spares fun _ _ => operator.keeps_apply value
  | letBind name value | typedLet name _ value =>
      refine (hev value _).bind fun result _ _ hresult => ?_
      exact (keeps_bind_name name hresult).bind fun _ _ _ _ => hnull _
  | constBind name value =>
      refine (hev value _).bind fun result _ _ hresult => ?_
      exact (keeps_bind_constant name hresult).bind fun _ _ _ _ => hnull _
  | assign name value =>
      refine (hev value _).bind fun result _ _ hresult => ?_
      exact (keeps_bind_name name hresult).bind fun _ _ hgrows _ =>
        keeps_pure (hresult.mono hgrows.next_le)
  | assignIndex collection index value => exact keeps_assign_index hev collection index value
  | assignAttribute object name value => exact keeps_assign_attribute hev object name value
  | destructure names value => exact keeps_destructure hev names value
  | block exprs => exact keeps_body hev exprs
  | ifThen test thenBody elseBranch => exact keeps_if_then hev test thenBody elseBranch
  | whileLoop test exprs => exact keeps_while_rounds hev test exprs fuel fun _ _ => trivial
  | forLoop binder iterable exprs => exact keeps_for_loop hev binder iterable exprs
  | matchOn subject arms =>
      exact (hev subject _).bind fun value _ _ _ => keeps_match_arms hev value arms
  | tryCatch exprs binder handler => exact keeps_try_catch hev exprs binder handler
  | «throwError» value cause => exact keeps_throw_value hev value cause
  | returnValue value => exact keeps_return_value hev value
  | breakLoop | continueLoop => exact keeps_throw fun _ _ => trivial
  | defineFunction name parameters exprs => exact keeps_define_function name parameters exprs
  | defineClass name bases members => exact keeps_define_class hev name bases members
  | defineStruct name fields => exact keeps_define_struct name fields
  | defineEnum name variants => exact keeps_define_enum name variants
  | call callee items => exact keeps_call hev callee items
  | index collection place =>
      refine (hev collection _).bind fun collection _ _ hcollection => ?_
      refine (hev place _).bind fun place _ hgrows _ => ?_
      exact keeps_perform (Application.spares (.getItem collection place) rfl) fun _ hcover =>
        Builtin.keeps_get_item (hcollection _ (hcover.mono hgrows.next_le)) place
  | getAttribute object name | ownField object name =>
      exact (hev object _).bind fun object _ _ hobject => keeps_get_attribute hobject name
  | methodCall object method items => exact keeps_method_call hev object method items
  | newObject className items =>
      refine (keeps_lookup_class className).bind fun id _ _ hid => ?_
      exact (keeps_values hev items).bind fun arguments _ hgrows harguments =>
        keeps_instantiate hev (hid.lt.trans_le hgrows.next_le) harguments
  | newRecord className fields => exact keeps_new_record hev className fields
  | enumVariant enumName variant => exact keeps_enum_variant enumName variant
  | list items =>
      exact (keeps_values hev items).bind fun values _ _ hvalues =>
        keeps_perform (Action.within_new_list _).spares fun _ hcover =>
          Action.keeps_new_list (.of_list (hvalues _ hcover))
  | tuple items =>
      exact (keeps_values hev items).bind fun values _ _ hvalues =>
        keeps_perform (Action.within_new_tuple _).spares fun _ hcover =>
          Action.keeps_new_tuple (hvalues _ hcover)
  | set items =>
      exact Keeps.bind (keeps_set_items hev items fun _ _ => .nil) fun keys _ _ hkeys =>
        keeps_perform (Action.within_new_set _).spares fun _ hcover =>
          Action.keeps_new_set (hkeys _ hcover)
  | dict pairs =>
      exact Keeps.bind (keeps_dict_pairs hev pairs fun _ _ => .empty) fun dict _ _ hdict =>
        keeps_perform (Action.within_new_dict _).spares fun _ hcover =>
          Action.keeps_new_dict (hdict _ hcover)
  | comprehension element binder iterable =>
      exact keeps_comprehension hev element binder iterable
  | importModule target => exact keeps_import_module target

omit hev in
/-- Evaluation keeps the heap well shaped. -/
theorem keeps_evaluate (fuel : Nat) (expr : Expr) (classes : Store ClassDef) :
    Keeps classes Value.Sound (evaluate fuel expr) := by
  induction fuel generalizing expr classes with
  | zero => exact keeps_throw fun _ _ => trivial
  | succ fuel ih => exact keeps_step ih fuel expr

end Eval

end Script
