import Script.Interpreter
import Script.Proofs.Builtin.Sound
import Script.Proofs.Eval.Rules

/-!
# Two evaluations side by side

`Eval.Parallel` compares two evaluations of the same construct that differ in the evaluation of its
parts. Each rule is shown to end in the same way on both sides, with states that differ in their
logs at most. If `strict` is assumed, the states are the same and sound, and so is the result: then
the two evaluations of the parts are compared in sound states only.

The log is never read, so what a program does is the same whatever has been logged before:
`parallel_evaluate` says this without assuming `strict`, and with it that evaluation keeps states
sound.
-/

namespace Script

section

variable [KnownClasses]

namespace Scope.Sound

variable {scope : Scope}

theorem empty : Scope.empty.Sound :=
  Table.Sound.empty

theorem bind_parameters (h : scope.Sound) {arguments : List (String × Value)}
    (harguments : ∀ pair ∈ arguments, pair.2.Sound) :
    (arguments.foldl (fun scope pair => scope.bindParameter pair.1 pair.2) scope).Sound := by
  induction arguments generalizing scope with
  | nil => exact h
  | cons pair arguments ih =>
      obtain ⟨hpair, hrest⟩ := List.forall_mem_cons.mp harguments
      exact ih (Table.Sound.insert h pair.1 hpair) hrest

/-- The scope of a call holds the bindings of the caller, the receiver and the arguments. -/
theorem for_call (h : scope.Sound) (receiver : Option InstanceId)
    {arguments : List (String × Value)} (harguments : ∀ pair ∈ arguments, pair.2.Sound) :
    (scope.forCall (receiver.map .object) arguments).Sound := by
  unfold forCall
  cases receiver with
  | none => exact h.bind_parameters harguments
  | some id =>
      have hself : (scope.bind "self" (.object id)).Sound := Table.Sound.insert h "self" trivial
      exact hself.bind_parameters harguments

end Scope.Sound

/-- What a name means in a sound scope, if the classes with names are known. -/
theorem World.sound_lookup {world : World} {scope : Scope} (hscope : scope.Sound)
    (hclasses : ∀ name id, world.classes.get? name = some id → KnownClasses.known id)
    {name : String} {value : Value} (h : world.lookup? scope name = some value) :
    value.Sound := by
  unfold lookup? at h
  cases hbound : scope.get? name with
  | some bound =>
      rw [hbound] at h
      cases h
      exact Table.Sound.get hscope hbound
  | none =>
      rw [hbound] at h
      cases hfunction : world.functions.get? name with
      | some id =>
          rw [hfunction] at h
          cases h
          trivial
      | none =>
          rw [hfunction] at h
          cases hclass : world.classes.get? name with
          | some id =>
              rw [hclass] at h
              cases h
              exact hclasses name id hclass
          | none =>
              rw [hclass] at h
              cases hfrozen : frozenValue? name with
              | some frozen =>
                  rw [hfrozen] at h
                  cases h
                  unfold frozenValue? at hfrozen
                  split at hfrozen <;> cases hfrozen <;> trivial
              | none =>
                  rw [hfrozen] at h
                  obtain ⟨function, -, rfl⟩ := Option.map_eq_some_iff.mp h
                  trivial

/-- The value that a function is being left with is sound. -/
def Exit.Sound : Exit → Prop
  | .jump (.returning value) => value.Sound
  | _ => True

theorem EvalState.Sound.frame {state : EvalState} (h : state.Sound) (id : FunctionId)
    (receiver : Option InstanceId) {items : List Value} (hitems : ∀ item ∈ items, item.Sound) :
    (state.frame id receiver items).Sound :=
  h.scope.for_call receiver fun pair hpair => hitems pair.2 (List.of_mem_zip hpair).2

end

attribute [local instance] KnownClasses.all

namespace EvalState

/-- The state with another log. -/
def withLog (state : EvalState) (log : List LogEvent) : EvalState :=
  { state with world := { state.world with log := log } }

/-- The second state differs from the first in its log at most. In the strict sense both are the
same state, and sound. -/
inductive Alike (strict : Prop) (state : EvalState) : EvalState → Prop where
  | withLog (log : List LogEvent) (h : strict → state.Sound ∧ log = state.world.log) :
      Alike strict state (state.withLog log)

theorem Alike.refl {strict : Prop} {state : EvalState} (h : strict → state.Sound) :
    Alike strict state state :=
  .withLog state.world.log fun hstrict => ⟨h hstrict, rfl⟩

theorem Alike.eq {state other : EvalState} (h : Alike True state other) : other = state := by
  obtain ⟨log, hstrict⟩ := h
  obtain ⟨-, rfl⟩ := hstrict trivial
  rfl

theorem Alike.sound {state other : EvalState} (h : Alike True state other) : state.Sound := by
  obtain ⟨log, hstrict⟩ := h
  exact (hstrict trivial).1

end EvalState

namespace Eval

open EvalState Script.Action

variable {α β : Type} {strict : Prop} {good : α → Prop} {next : β → Prop}

/-- Two evaluations have ended in the same way. -/
inductive Ends (strict : Prop) (good : α → Prop) :
    Except Exit α × EvalState → Except Exit α × EvalState → Prop where
  | ok {result : α} {after after' : EvalState} :
      (strict → good result) → Alike strict after after' →
        Ends strict good (.ok result, after) (.ok result, after')
  | error {exit : Exit} {after after' : EvalState} :
      (strict → exit.Sound) → Alike strict after after' →
        Ends strict good (.error exit, after) (.error exit, after')

/-- Two evaluations end in the same way if they begin in states that are alike. -/
def Parallel (strict : Prop) (good : α → Prop) (part other : Eval α) : Prop :=
  ∀ state state', Alike strict state state' → Ends strict good (part state) (other state')

/-- In the strict sense the two evaluations have ended with the same. -/
theorem Ends.eq {first second : Except Exit α × EvalState} (h : Ends True good first second) :
    second = first := by
  cases h with
  | ok _ halike => rw [halike.eq]
  | error _ halike => rw [halike.eq]

theorem Ends.sound {first second : Except Exit α × EvalState} (h : Ends True good first second) :
    first.2.Sound := by
  cases h with
  | ok _ halike => exact halike.sound
  | error _ halike => exact halike.sound

/-! ## The parts of a rule -/

theorem parallel_pure {result : α} (h : strict → good result) :
    Parallel strict good (pure result) (pure result) :=
  fun _ _ halike => .ok h halike

theorem parallel_throw {exit : Exit} (h : strict → exit.Sound) :
    Parallel strict good (throw exit) (throw exit) :=
  fun _ _ halike => .error h halike

theorem Parallel.bind {part other : Eval α} {rest rest' : α → Eval β}
    (hpart : Parallel strict good part other)
    (hrest : ∀ result, (strict → good result) → Parallel strict next (rest result) (rest' result)) :
    Parallel strict next (part >>= rest) (other >>= rest') := by
  intro state state' halike
  have hends := hpart state state' halike
  rw [run_bind, run_bind]
  generalize part state = first at hends ⊢
  generalize other state' = second at hends ⊢
  cases hends with
  | ok hgood halike => exact hrest _ hgood _ _ halike
  | error hexit halike => exact .error hexit halike

theorem parallel_heap : Parallel strict Heap.Sound heap heap := by
  rintro state _ ⟨log, h⟩
  exact .ok (fun hstrict => (h hstrict).1.heap) ⟨log, h⟩

theorem parallel_scope : Parallel strict Scope.Sound scope scope := by
  rintro state _ ⟨log, h⟩
  exact .ok (fun hstrict => (h hstrict).1.scope) ⟨log, h⟩

/-- What is done with the state must not depend on its log. -/
theorem parallel_get {rest rest' : EvalState → Eval β}
    (h : ∀ state log, (strict → state.Sound) →
      Parallel strict next (rest state) (rest' (state.withLog log))) :
    Parallel strict next (get >>= rest) (get >>= rest') := by
  rintro state _ ⟨log, hstate⟩
  exact h state log (fun hstrict => (hstate hstrict).1) _ _ ⟨log, hstate⟩

theorem parallel_set_scope {scope : Scope} (h : strict → scope.Sound) :
    Parallel strict (fun _ => True) (setScope scope) (setScope scope) := by
  rintro state _ ⟨log, hstate⟩
  refine .ok (fun _ => trivial) ⟨log, fun hstrict => ?_⟩
  exact ⟨⟨h hstrict, (hstate hstrict).1.heap⟩, (hstate hstrict).2⟩

/-- A change of the world that has nothing to do with the heap and the log. -/
theorem parallel_modify_world {change : World → World}
    (hblind : ∀ world log, change { world with log := log } = { change world with log := log })
    (hheap : ∀ world, (change world).heap = world.heap)
    (hlog : ∀ world, (change world).log = world.log) :
    Parallel strict (fun _ => True) (modifyWorld change) (modifyWorld change) := by
  rintro state _ ⟨log, h⟩
  let after : EvalState := { state with world := change state.world }
  have hother : modifyWorld change (state.withLog log) = (.ok (), after.withLog log) :=
    congrArg (fun world => (Except.ok (), EvalState.mk state.scope world))
      (hblind state.world log)
  rw [hother]
  refine .ok (fun _ => trivial) ⟨log, fun hstrict => ⟨⟨(h hstrict).1.scope, ?_⟩, ?_⟩⟩
  · show (change state.world).heap.Sound
    rw [hheap]
    exact (h hstrict).1.heap
  · show log = (change state.world).log
    rw [hlog]
    exact (h hstrict).2

theorem parallel_record (event : LogEvent) :
    Parallel strict (fun _ => True) (record event) (record event) := by
  rintro state _ ⟨log, h⟩
  refine .ok (fun _ => trivial) ⟨event :: log, fun hstrict => ?_⟩
  obtain ⟨hsound, rfl⟩ := h hstrict
  exact ⟨⟨hsound.scope, hsound.heap⟩, rfl⟩

theorem parallel_perform {action : Action α} (h : strict → action.Keeps good) :
    Parallel strict good (perform action) (perform action) := by
  rintro state _ ⟨log, hstate⟩
  have hafter (heap : Heap) (hheap : strict → heap.Sound) :
      Alike strict (state.withHeap heap) ((state.withLog log).withHeap heap) :=
    ⟨log, fun hstrict => ⟨⟨(hstate hstrict).1.scope, hheap hstrict⟩, (hstate hstrict).2⟩⟩
  have hother : (state.withLog log).world.heap = state.world.heap := rfl
  unfold perform
  rw [hother]
  cases hrun : action state.world.heap with
  | ok pair =>
      have hkept (hstrict : strict) := h hstrict _ (hstate hstrict).1.heap _ _ hrun
      exact .ok (fun hstrict => (hkept hstrict).1) (hafter _ fun hstrict => (hkept hstrict).2)
  | error failure =>
      cases failure with
      | fault fault => exact .error (fun _ => trivial) ⟨log, hstate⟩
      | raised kind message =>
          refine .error (fun _ => trivial) (hafter _ fun hstrict => ?_)
          exact (keeps_new_error kind [message] _ (hstate hstrict).1.heap _ _ rfl).2

theorem parallel_raise (kind : ErrorKind) (message : String) :
    Parallel strict good (raise kind message) (raise kind message) :=
  parallel_perform fun _ => keeps_raise kind message

/-- Nothing follows an error. -/
theorem raise_bind (kind : ErrorKind) (message : String) (rest : α → Eval β) :
    (raise kind message >>= rest) = raise kind message := by
  funext state
  rw [run_bind]
  rfl

theorem parallel_raise_then (kind : ErrorKind) (message : String) {rest rest' : α → Eval β} :
    Parallel strict next (raise kind message >>= rest) (raise kind message >>= rest') := by
  rw [raise_bind, raise_bind]
  exact parallel_raise kind message

/-! ## Names and bindings -/

theorem parallel_check_writable (name : String) :
    Parallel strict (fun _ => True) (checkWritable name) (checkWritable name) := by
  have hconstant : Parallel strict (fun _ => True)
      (do if (← scope).isConstant name then
            raise .typeError s!"cannot reassign constant '{name}'")
      (do if (← scope).isConstant name then
            raise .typeError s!"cannot reassign constant '{name}'") := by
    refine parallel_scope.bind fun scope _ => ?_
    split
    · exact parallel_raise _ _
    · exact parallel_pure fun _ => trivial
  unfold checkWritable
  by_cases hfrozen : (frozenValue? name).isSome
  · simp only [hfrozen, if_true]
    exact parallel_raise_then _ _
  · simp only [hfrozen]
    exact hconstant

theorem parallel_bind_name (name : String) {value : Value} (h : strict → value.Sound) :
    Parallel strict (fun _ => True) (bindName name value) (bindName name value) := by
  refine (parallel_check_writable name).bind fun _ _ => ?_
  refine parallel_scope.bind fun scope hscope => parallel_set_scope fun hstrict => ?_
  exact Table.Sound.insert (hscope hstrict) name (h hstrict)

theorem parallel_bind_constant (name : String) {value : Value} (h : strict → value.Sound) :
    Parallel strict (fun _ => True) (bindConstant name value) (bindConstant name value) := by
  refine (parallel_check_writable name).bind fun _ _ => ?_
  refine parallel_scope.bind fun scope hscope => parallel_set_scope fun hstrict => ?_
  exact Table.Sound.insert (hscope hstrict) name (h hstrict)

theorem parallel_bind_all {pairs : List (String × Value)}
    (h : strict → ∀ pair ∈ pairs, pair.2.Sound) :
    Parallel strict (fun _ => True) (bindAll pairs) (bindAll pairs) := by
  induction pairs with
  | nil => exact parallel_pure fun _ => trivial
  | cons pair pairs ih =>
      refine Parallel.bind (parallel_bind_name pair.1 fun hstrict => ?_) fun _ _ => ?_
      · exact h hstrict pair List.mem_cons_self
      · exact ih fun hstrict other hother => h hstrict other (List.mem_cons_of_mem pair hother)

theorem parallel_lookup (name : String) :
    Parallel strict Value.Sound (lookup name) (lookup name) := by
  refine parallel_get fun state log hstate => ?_
  have hother : (state.withLog log).world.lookup? (state.withLog log).scope name =
      state.world.lookup? state.scope name := rfl
  rw [hother]
  cases hfound : state.world.lookup? state.scope name with
  | some value =>
      exact parallel_pure fun hstrict =>
        World.sound_lookup (hstate hstrict).scope (fun _ _ _ => trivial) hfound
  | none => exact parallel_raise _ _

theorem parallel_lookup_class (name : String) :
    Parallel strict (fun _ => True) (lookupClass name) (lookupClass name) := by
  refine parallel_get fun state log _ => ?_
  dsimp only [EvalState.withLog]
  split
  · exact parallel_raise _ _
  · exact parallel_raise _ _
  · exact parallel_pure fun _ => trivial
  · exact parallel_raise _ _

/-! ## Objects and definitions -/

theorem parallel_instance_attribute (id : InstanceId) (name : String) :
    Parallel strict Value.Sound (instanceAttribute id name) (instanceAttribute id name) := by
  refine parallel_heap.bind fun heap hheap => ?_
  dsimp only
  split
  · rename_i value hfound
    refine parallel_pure fun hstrict => ?_
    obtain hfield | ⟨-, hdefault⟩ := Option.or_eq_some_iff.mp hfound
    · exact Table.Sound.get ((hheap hstrict).instanceOf id) hfield
    · exact (hheap hstrict).find_field hdefault
  · split
    · exact parallel_perform fun _ => keeps_new_mark.bind fun _ _ => keeps_pure trivial
    · exact parallel_raise _ _

theorem parallel_class_attribute (id : ClassId) (name : String) :
    Parallel strict Value.Sound (classAttribute id name) (classAttribute id name) := by
  refine parallel_heap.bind fun heap hheap => ?_
  dsimp only
  split
  · split
    · exact parallel_pure fun _ => trivial
    · exact parallel_raise _ _
  · split
    · rename_i value hfound
      refine parallel_pure fun hstrict => ?_
      obtain hdefault | ⟨-, hmethod⟩ := Option.or_eq_some_iff.mp hfound
      · exact (hheap hstrict).find_field hdefault
      · obtain ⟨method, -, rfl⟩ := Option.map_eq_some_iff.mp hmethod
        trivial
    · exact parallel_raise _ _

theorem parallel_get_attribute {object : Value} (h : strict → object.Sound) (name : String) :
    Parallel strict Value.Sound (getAttribute object name) (getAttribute object name) := by
  unfold getAttribute
  split
  · exact parallel_instance_attribute _ name
  · exact parallel_class_attribute _ name
  · exact parallel_perform fun hstrict => Builtin.keeps_get_attribute (h hstrict) name

theorem parallel_set_attribute (object : Value) (name : String) {value : Value}
    (h : strict → value.Sound) :
    Parallel strict (fun _ => True) (setAttribute object name value)
      (setAttribute object name value) := by
  refine parallel_heap.bind fun heap _ => ?_
  split
  · dsimp only
    split
    · exact parallel_raise_then _ _
    · exact parallel_perform fun hstrict => keeps_set_field _ name (h hstrict)
  · exact parallel_raise _ _

theorem parallel_make_function (name : String) (parameters : List String) (exprs : List Expr) :
    Parallel strict (fun _ => True) (makeFunction name parameters exprs)
      (makeFunction name parameters exprs) := by
  unfold makeFunction
  split
  · exact parallel_raise _ _
  · exact parallel_perform fun _ => keeps_new_function _

theorem parallel_add_class {definition : ClassDef} (h : strict → definition.Sound) :
    Parallel strict (fun _ => True) (addClass definition) (addClass definition) := by
  refine (parallel_perform fun hstrict => keeps_new_class (h hstrict)).bind fun id _ => ?_
  exact parallel_modify_world (fun _ _ => rfl) (fun _ => rfl) fun _ => rfl

theorem parallel_define_function (name : String) (parameters : List String)
    (exprs : List Expr) :
    Parallel strict Value.Sound (defineFunction name parameters exprs)
      (defineFunction name parameters exprs) := by
  refine (parallel_make_function name parameters exprs).bind fun id _ => ?_
  refine Parallel.bind (parallel_modify_world (fun _ _ => rfl) (fun _ => rfl) fun _ => rfl) ?_
  exact fun _ _ => parallel_pure fun _ => trivial

theorem parallel_define_struct (name : String) (fields : List String) :
    Parallel strict Value.Sound (defineStruct name fields) (defineStruct name fields) := by
  refine Parallel.bind (parallel_add_class fun _ => Table.Sound.of_list ?_) fun _ _ => ?_
  · exact List.forall_mem_map.mpr fun _ _ => trivial
  · exact (parallel_record _).bind fun _ _ => parallel_pure fun _ => trivial

theorem parallel_define_enum (name : String) (variants : List String) :
    Parallel strict Value.Sound (defineEnum name variants) (defineEnum name variants) := by
  have hdefinition : ClassDef.Sound ⟨name, .enum, none, .empty, .empty, variants⟩ :=
    Table.Sound.empty
  refine (parallel_add_class fun _ => hdefinition).bind fun _ _ => ?_
  exact (parallel_record _).bind fun _ _ => parallel_pure fun _ => trivial

theorem parallel_enum_variant (enumName variant : String) :
    Parallel strict Value.Sound (enumVariant enumName variant) (enumVariant enumName variant) := by
  refine (parallel_lookup_class enumName).bind fun id _ => ?_
  refine parallel_heap.bind fun heap _ => ?_
  dsimp only
  split
  · exact parallel_raise_then _ _
  · exact parallel_class_attribute id variant

theorem parallel_import_module (target : String) :
    Parallel strict Value.Sound (importModule target) (importModule target) := by
  refine (parallel_record _).bind fun _ _ => ?_
  refine (parallel_perform fun _ => keeps_new_dict .empty).bind fun dict hdict => ?_
  exact (parallel_bind_name _ hdict).bind fun _ _ => parallel_pure fun _ => trivial

/-! ## Input and output -/

theorem parallel_on_console (use : Console → Except StreamFault α × Console) :
    Parallel strict (fun _ => True) (onConsole use) (onConsole use) := by
  refine parallel_get fun state log _ => ?_
  have hother : (state.withLog log).world.console = state.world.console := rfl
  rw [hother]
  rcases use state.world.console with ⟨result, console⟩
  refine Parallel.bind (parallel_modify_world (fun _ _ => rfl) (fun _ => rfl) fun _ => rfl) ?_
  intro _ _
  cases result with
  | ok result => exact parallel_pure fun _ => trivial
  | error fault =>
      cases fault with
      | system reason => exact parallel_raise _ _
      | closed | undecodable | unencodable => exact parallel_throw fun _ => trivial

theorem parallel_print (items : List Value) :
    Parallel strict Value.Sound (print items) (print items) := by
  refine (parallel_perform fun _ => keeps_map_m fun item _ => keeps_display item).bind
    fun texts _ => ?_
  exact (parallel_on_console _).bind fun _ _ => parallel_pure fun _ => trivial

theorem parallel_input (items : List Value) :
    Parallel strict Value.Sound (input items) (input items) := by
  let read : Eval Value := do
    let line ← readLine
    if line.isEmpty then raise .eofError "EOF when reading a line"
    return .str (String.ofList (Text.trimRightBy (fun c => c = '\r' || c = '\n') line))
  have hread : Parallel strict Value.Sound read read := by
    refine (parallel_on_console _).bind fun line _ => ?_
    split
    · exact parallel_raise_then _ _
    · exact parallel_pure fun _ => trivial
  refine (parallel_perform fun _ => Builtin.keeps_check_count _ _ _ _).bind fun _ _ => ?_
  split
  · refine (parallel_perform fun _ => keeps_display _).bind fun text _ => ?_
    exact (parallel_on_console _).bind fun _ _ => hread
  · exact hread

theorem parallel_call_builtin (function : BuiltinFunction) {items : List Value}
    (h : strict → ∀ item ∈ items, item.Sound) :
    Parallel strict Value.Sound (callBuiltin function items) (callBuiltin function items) := by
  unfold callBuiltin
  split
  · exact parallel_print items
  · exact parallel_input items
  · exact parallel_perform fun hstrict => Builtin.keeps_compute function (h hstrict)

/-! ## Calls -/

/-- The end of a call or program. -/
theorem Ends.at_boundary {run run' : Eval Value} {state state' : EvalState}
    (h : Ends strict Value.Sound (run state) (run' state')) :
    Ends strict Value.Sound (atBoundary run state) (atBoundary run' state') := by
  unfold atBoundary
  generalize run state = first at h ⊢
  generalize run' state' = second at h ⊢
  cases h with
  | ok hresult halike => exact .ok hresult halike
  | error hexit halike =>
      rename_i exit after after'
      cases exit with
      | jump jump =>
          cases jump with
          | returning value => exact .ok hexit halike
          | breaking => exact parallel_raise _ _ after after' halike
          | continuing => exact parallel_raise _ _ after after' halike
      | thrown error => exact .error hexit halike
      | fault fault => exact .error hexit halike
      | outOfFuel => exact .error hexit halike

/-- The caller's scope is there again after a call, and it was sound. -/
theorem Ends.in_frame {run run' : Eval Value} {frame : Scope} {state : EvalState}
    (hstate : strict → state.Sound) (log : List LogEvent)
    (h : Ends strict Value.Sound (run (state.entering frame))
      (run' ((state.withLog log).entering frame))) :
    Ends strict Value.Sound (inFrame frame run state) (inFrame frame run' (state.withLog log)) := by
  rw [in_frame_run, in_frame_run]
  generalize run (state.entering frame) = first at h ⊢
  generalize run' ((state.withLog log).entering frame) = second at h ⊢
  have hreturn {left left' : EvalState} (halike : Alike strict left left') :
      Alike strict (state.returning left) ((state.withLog log).returning left') := by
    obtain ⟨log', hleft⟩ := halike
    refine ⟨log', fun hstrict => ?_⟩
    exact ⟨⟨(hstate hstrict).scope, (hleft hstrict).1.heap⟩, (hleft hstrict).2⟩
  cases h with
  | ok hresult halike => exact .ok hresult (hreturn halike)
  | error hexit halike => exact .error hexit (hreturn halike)

variable {ev other : Evaluator} (hev : ∀ expr, Parallel strict Value.Sound (ev expr) (other expr))
include hev

theorem parallel_statements (exprs : List Expr) {last : Value} (hlast : strict → last.Sound) :
    Parallel strict Value.Sound (statements ev exprs last) (statements other exprs last) := by
  induction exprs generalizing last with
  | nil => exact parallel_pure hlast
  | cons expr exprs ih => exact (hev expr).bind fun value hvalue => ih hvalue

theorem parallel_body (exprs : List Expr) :
    Parallel strict Value.Sound (body ev exprs) (body other exprs) :=
  parallel_statements hev exprs fun _ => trivial

theorem parallel_values (exprs : List Expr) :
    Parallel strict (fun items => ∀ item ∈ items, item.Sound) (values ev exprs)
      (values other exprs) := by
  induction exprs with
  | nil => exact parallel_pure fun _ => nofun
  | cons expr exprs ih =>
      refine (hev expr).bind fun value hvalue => ih.bind fun items hitems => ?_
      exact parallel_pure fun hstrict =>
        List.forall_mem_cons.mpr ⟨hvalue hstrict, hitems hstrict⟩

theorem parallel_condition (expr : Expr) :
    Parallel strict (fun _ => True) (condition ev expr) (condition other expr) :=
  (hev expr).bind fun value _ => parallel_perform fun _ => keeps_is_truthy value

theorem parallel_call_function (id : FunctionId) {items : List Value}
    (hitems : strict → ∀ item ∈ items, item.Sound) (receiver : Option InstanceId) :
    Parallel strict Value.Sound (callFunction ev id items receiver)
      (callFunction other id items receiver) := by
  rintro state _ ⟨log, hstate⟩
  rw [call_function_run, call_function_run]
  have hheap : (state.withLog log).world.heap = state.world.heap := rfl
  have hmaxDepth : (state.withLog log).world.maxDepth = state.world.maxDepth := rfl
  have hdepth : (state.withLog log).world.depth = state.world.depth := rfl
  have hframe : (state.withLog log).frame id receiver items = state.frame id receiver items := rfl
  rw [hheap, hmaxDepth, hdepth, hframe]
  dsimp only
  split
  · exact parallel_raise _ _ _ _ ⟨log, hstate⟩
  · split
    · exact parallel_raise _ _ _ _ ⟨log, hstate⟩
    · refine Ends.at_boundary (.in_frame (fun hstrict => (hstate hstrict).1) log ?_)
      refine parallel_body hev _ _ _ ⟨log, fun hstrict => ⟨⟨?_, ?_⟩, (hstate hstrict).2⟩⟩
      · exact (hstate hstrict).1.frame id receiver (hitems hstrict)
      · exact (hstate hstrict).1.heap

theorem parallel_instantiate (id : ClassId) {items : List Value}
    (hitems : strict → ∀ item ∈ items, item.Sound) :
    Parallel strict Value.Sound (instantiate ev id items) (instantiate other id items) := by
  refine parallel_heap.bind fun heap hheap => ?_
  dsimp only
  split
  · exact parallel_raise _ _
  · split
    · exact parallel_raise_then _ _
    · refine Parallel.bind (parallel_perform fun hstrict => keeps_new_instance ?_)
        fun object _ => parallel_pure fun _ => trivial
      refine Table.Sound.of_list fun pair hpair => ?_
      exact hitems hstrict pair.2 (List.of_mem_zip hpair).2
  · have hfields (hstrict : strict) : Instance.Sound ⟨id, heap.fieldDefaults id⟩ :=
      (hheap hstrict).field_defaults id
    refine (parallel_perform fun hstrict => keeps_new_instance (hfields hstrict)).bind
      fun object _ => ?_
    split
    · exact (parallel_call_function hev _ hitems _).bind fun _ _ => parallel_pure fun _ => trivial
    · split
      · exact parallel_pure fun _ => trivial
      · exact parallel_raise _ _

theorem parallel_call_value {callee : Value} (hcallee : strict → callee.Sound) {items : List Value}
    (hitems : strict → ∀ item ∈ items, item.Sound) :
    Parallel strict Value.Sound (callValue ev callee items) (callValue other callee items) := by
  unfold callValue
  split
  · exact parallel_call_function hev _ hitems none
  · exact parallel_call_function hev _ hitems _
  · rename_i mark object method
    have hobject (hstrict : strict) : object.Sound := hcallee hstrict
    exact parallel_perform fun hstrict =>
      Builtin.keeps_call_method (hobject hstrict) method (hitems hstrict)
  · exact parallel_call_builtin _ hitems
  · exact parallel_instantiate hev _ hitems
  · exact parallel_heap.bind fun heap _ => parallel_raise _ _

theorem parallel_call (callee : Expr) (items : List Expr) :
    Parallel strict Value.Sound (call ev callee items) (call other callee items) := by
  refine parallel_get fun state log _ => ?_
  have hother : (state.withLog log).world.functions = state.world.functions := rfl
  rw [hother]
  dsimp only
  split
  · refine (parallel_values hev items).bind fun arguments harguments => ?_
    exact parallel_call_function hev _ harguments none
  · refine (hev callee).bind fun target htarget => ?_
    refine (parallel_values hev items).bind fun arguments harguments => ?_
    exact parallel_call_value hev htarget harguments

theorem parallel_method_call (object : Expr) (method : String) (items : List Expr) :
    Parallel strict Value.Sound (methodCall ev object method items)
      (methodCall other object method items) := by
  refine (hev object).bind fun receiver hreceiver => ?_
  refine (parallel_values hev items).bind fun arguments harguments => ?_
  have hcall := (parallel_get_attribute hreceiver method).bind fun target htarget =>
    parallel_call_value hev htarget harguments
  split
  · exact hcall
  · exact hcall
  · exact parallel_perform fun hstrict =>
      Builtin.keeps_call_method (hreceiver hstrict) method (harguments hstrict)

/-! ## Loops and branches -/

/-- A round of a loop ends as its statements do, but for the jumps that belong to the loop. -/
theorem parallel_loop_round (exprs : List Expr) :
    Parallel strict (fun pair => pair.1.Sound) (loopRound ev exprs) (loopRound other exprs) := by
  intro state state' halike
  have hends := parallel_body hev exprs state state' halike
  unfold loopRound
  generalize body ev exprs state = first at hends ⊢
  generalize body other exprs state' = second at hends ⊢
  cases hends with
  | ok hresult halike => exact .ok hresult halike
  | error hexit halike =>
      rename_i exit after after'
      cases exit with
      | jump jump =>
          cases jump with
          | returning value => exact .error hexit halike
          | breaking => exact .ok (fun _ => trivial) halike
          | continuing => exact .ok (fun _ => trivial) halike
      | thrown error => exact .error hexit halike
      | fault fault => exact .error hexit halike
      | outOfFuel => exact .error hexit halike

theorem parallel_while_rounds (test : Expr) (exprs : List Expr) (fuel : Nat) {last : Value}
    (hlast : strict → last.Sound) :
    Parallel strict Value.Sound (whileRounds ev test exprs fuel last)
      (whileRounds other test exprs fuel last) := by
  induction fuel generalizing last with
  | zero => exact parallel_throw fun _ => trivial
  | succ fuel ih =>
      refine (parallel_condition hev test).bind fun holds _ => ?_
      split
      · refine (parallel_loop_round hev exprs).bind fun ⟨value, ends⟩ hvalue => ?_
        dsimp only
        split
        · exact parallel_pure hvalue
        · exact ih hvalue
      · exact parallel_pure hlast

theorem parallel_for_rounds (binder : String) (exprs : List Expr) {items : List Value}
    (hitems : strict → ∀ item ∈ items, item.Sound) {last : Value} (hlast : strict → last.Sound) :
    Parallel strict Value.Sound (forRounds ev binder exprs items last)
      (forRounds other binder exprs items last) := by
  induction items generalizing last with
  | nil => exact parallel_pure hlast
  | cons item items ih =>
      have hrest (hstrict : strict) := List.forall_mem_cons.mp (hitems hstrict)
      refine (parallel_bind_name binder fun hstrict => (hrest hstrict).1).bind fun _ _ => ?_
      refine (parallel_loop_round hev exprs).bind fun ⟨value, ends⟩ hvalue => ?_
      dsimp only
      split
      · exact parallel_pure hvalue
      · exact ih (fun hstrict => (hrest hstrict).2) hvalue

/-- The items that a loop or comprehension goes through. -/
theorem parallel_source_items (iterable : Expr) :
    Parallel strict (fun items => ∀ item ∈ items, item.Sound) (sourceItems ev iterable)
      (sourceItems other iterable) :=
  (hev iterable).bind fun _ hsource =>
    parallel_perform fun hstrict => Builtin.keeps_items_of (hsource hstrict)

theorem parallel_for_loop (binder : String) (iterable : Expr) (exprs : List Expr) :
    Parallel strict Value.Sound (forLoop ev binder iterable exprs)
      (forLoop other binder iterable exprs) := by
  refine (hev iterable).bind fun source hsource => ?_
  refine (parallel_perform fun hstrict => Builtin.keeps_items_of (hsource hstrict)).bind
    fun items hitems => ?_
  exact parallel_for_rounds hev binder exprs hitems fun _ => trivial

theorem parallel_if_then (test : Expr) (thenBody : List Expr) (elseBranch : Option Expr) :
    Parallel strict Value.Sound (ifThen ev test thenBody elseBranch)
      (ifThen other test thenBody elseBranch) := by
  refine (parallel_condition hev test).bind fun holds _ => ?_
  split
  · exact parallel_body hev thenBody
  · cases elseBranch with
    | none => exact parallel_pure fun _ => trivial
    | some branch => exact hev branch

theorem parallel_match_arms (subject : Value) (arms : List (Expr × Expr)) :
    Parallel strict Value.Sound (matchArms ev subject arms) (matchArms other subject arms) := by
  fun_induction matchArms ev subject arms with
  | case1 => exact parallel_pure fun _ => trivial
  | case2 result rest => exact hev result
  | case3 pattern result rest hname ih =>
      rw [matchArms]
      · refine (hev pattern).bind fun value _ => ?_
        refine (parallel_perform fun _ => keeps_equal subject value).bind fun same _ => ?_
        split
        · exact hev result
        · exact ih
      · exact hname

theorem parallel_binary (operator : BinaryOperator) (left right : Expr) :
    Parallel strict Value.Sound (binary ev operator left right)
      (binary other operator left right) := by
  unfold binary
  split
  · refine (parallel_condition hev left).bind fun test _ => ?_
    split
    · exact (parallel_condition hev right).bind fun _ _ => parallel_pure fun _ => trivial
    · exact parallel_pure fun _ => trivial
  · refine (parallel_condition hev left).bind fun test _ => ?_
    split
    · exact parallel_pure fun _ => trivial
    · exact (parallel_condition hev right).bind fun _ _ => parallel_pure fun _ => trivial
  · refine (hev left).bind fun leftValue hleft => (hev right).bind fun rightValue hright => ?_
    exact parallel_perform fun hstrict => operator.keeps_apply (hleft hstrict) (hright hstrict)

/-! ## Errors -/

theorem parallel_run_handler (caught : ErrorId) (binder : Option String) (handler : List Expr) :
    Parallel strict Value.Sound (runHandler ev caught binder handler)
      (runHandler other caught binder handler) := by
  refine parallel_heap.bind fun heap _ => ?_
  refine (parallel_record _).bind fun _ _ => ?_
  cases binder with
  | none => exact parallel_body hev handler
  | some name =>
      have hcaught : strict → (Value.error caught).Sound := fun _ => trivial
      exact (parallel_bind_name name hcaught).bind fun _ _ => parallel_body hev handler

omit hev in
theorem parallel_throw_linked (caught inner : ErrorId) :
    Parallel strict Value.Sound (throwLinked caught inner) (throwLinked caught inner) := by
  have hthrow : Parallel strict Value.Sound (throw (.thrown inner)) (throw (.thrown inner)) :=
    parallel_throw fun _ => trivial
  refine parallel_heap.bind fun heap _ => ?_
  split
  · exact (parallel_perform fun _ => keeps_set_error _ _).bind fun _ _ => hthrow
  · exact hthrow

theorem parallel_handle (caught : ErrorId) (binder : Option String) (handler : List Expr) :
    Parallel strict Value.Sound (handle ev caught binder handler)
      (handle other caught binder handler) := by
  intro state state' halike
  have hends := parallel_run_handler hev caught binder handler state state' halike
  rw [handle_run, handle_run]
  generalize runHandler ev caught binder handler state = first at hends ⊢
  generalize runHandler other caught binder handler state' = second at hends ⊢
  cases hends with
  | ok hresult halike => exact .ok hresult halike
  | error hexit halike =>
      rename_i exit after after'
      cases exit with
      | thrown inner => exact parallel_throw_linked caught inner after after' halike
      | jump jump => exact .error hexit halike
      | fault fault => exact .error hexit halike
      | outOfFuel => exact .error hexit halike

theorem parallel_try_catch (exprs : List Expr) (binder : Option String) (handler : List Expr) :
    Parallel strict Value.Sound (tryCatch ev exprs binder handler)
      (tryCatch other exprs binder handler) := by
  intro state state' halike
  have hends := parallel_body hev exprs state state' halike
  have hhandle (error : ErrorId) := parallel_handle hev error binder handler
  unfold tryCatch
  generalize body ev exprs state = first at hends ⊢
  generalize body other exprs state' = second at hends ⊢
  cases hends with
  | ok hresult halike => exact .ok hresult halike
  | error hexit halike =>
      rename_i exit after after'
      cases exit with
      | thrown error => exact hhandle error after after' halike
      | jump jump => exact .error hexit halike
      | outOfFuel => exact .error hexit halike
      | fault fault =>
          cases fault with
          | recursion =>
              have hrecover := (parallel_perform fun _ =>
                keeps_new_error .recursionError [recursionMessage]).bind fun error _ =>
                  hhandle error
              exact hrecover after after' halike
          | _ => exact .error hexit halike

theorem parallel_throw_value (value : Expr) (cause : Option Expr) :
    Parallel strict Value.Sound (throwValue ev value cause) (throwValue other value cause) := by
  refine (hev value).bind fun thrown _ => ?_
  refine (parallel_perform fun _ => Builtin.keeps_to_error thrown).bind fun error _ => ?_
  cases cause with
  | none => exact parallel_throw fun _ => trivial
  | some cause =>
      refine (hev cause).bind fun causeValue _ => ?_
      refine (parallel_perform fun _ => Builtin.keeps_to_cause causeValue).bind fun linked _ => ?_
      exact (parallel_perform fun _ => keeps_set_error error _).bind fun _ _ =>
        parallel_throw fun _ => trivial

theorem parallel_return_value (value : Option Expr) :
    Parallel strict Value.Sound (returnValue ev value) (returnValue other value) := by
  cases value with
  | none => exact parallel_throw fun _ => trivial
  | some expr => exact (hev expr).bind fun result hresult => parallel_throw hresult

/-! ## Assignments and definitions -/

theorem parallel_destructure (names : List String) (expr : Expr) :
    Parallel strict Value.Sound (destructure ev names expr) (destructure other names expr) := by
  refine (hev expr).bind fun value hvalue => ?_
  refine (parallel_perform fun hstrict => Builtin.keeps_items_of (hvalue hstrict)).bind
    fun items hitems => ?_
  by_cases hfew : items.length < names.length
  · simp only [hfew, if_true]
    exact parallel_raise_then _ _
  · simp only [hfew, if_false]
    split
    · exact parallel_raise_then _ _
    · refine Parallel.bind (parallel_bind_all fun hstrict pair hpair => ?_) fun _ _ =>
        parallel_pure hvalue
      exact hitems hstrict pair.2 (List.of_mem_zip hpair).2

theorem parallel_assign_index (collection index value : Expr) :
    Parallel strict Value.Sound (assignIndex ev collection index value)
      (assignIndex other collection index value) := by
  refine (hev collection).bind fun collection _ => (hev index).bind fun index hindex => ?_
  refine (hev value).bind fun value hvalue => ?_
  refine (parallel_perform fun hstrict =>
    Builtin.keeps_set_item collection (hindex hstrict) (hvalue hstrict)).bind fun _ _ => ?_
  exact parallel_pure hvalue

theorem parallel_assign_attribute (object : Expr) (name : String) (value : Expr) :
    Parallel strict Value.Sound (assignAttribute ev object name value)
      (assignAttribute other object name value) := by
  refine (hev object).bind fun object _ => (hev value).bind fun value hvalue => ?_
  exact (parallel_set_attribute object name hvalue).bind fun _ _ => parallel_pure hvalue

theorem parallel_class_members (members : List Expr) {definition : ClassDef}
    (hdefinition : strict → definition.Sound) :
    Parallel strict ClassDef.Sound (classMembers ev members definition)
      (classMembers other members definition) := by
  fun_induction classMembers ev members definition with
  | case1 definition => exact parallel_pure hdefinition
  | case2 name parameters exprs rest definition ih =>
      rw [classMembers]
      exact (parallel_make_function name parameters exprs).bind fun id _ => ih id hdefinition
  | case3 name value rest definition ih =>
      rw [classMembers]
      exact (hev value).bind fun default hdefault => ih default fun hstrict =>
        Table.Sound.insert (hdefinition hstrict) name (hdefault hstrict)
  | case4 name value rest definition ih =>
      rw [classMembers]
      exact (hev value).bind fun default hdefault => ih default fun hstrict =>
        Table.Sound.insert (hdefinition hstrict) name (hdefault hstrict)
  | case5 name typeName value rest definition ih =>
      rw [classMembers]
      exact (hev value).bind fun default hdefault => ih default fun hstrict =>
        Table.Sound.insert (hdefinition hstrict) name (hdefault hstrict)
  | case6 member rest definition hfunction hassign hlet htyped =>
      rw [classMembers]
      · exact parallel_raise _ _
      all_goals assumption

theorem parallel_define_class (name : String) (bases : List String) (members : List Expr) :
    Parallel strict Value.Sound (defineClass ev name bases members)
      (defineClass other name bases members) := by
  have hrest (base : Option (ClassId × String)) :=
    (@parallel_class_members strict ev other hev members
      ⟨name, .regular, base.map (·.1), .empty, .empty, []⟩ fun _ => Table.Sound.empty).bind
        fun definition hdefinition => (parallel_add_class hdefinition).bind fun _ _ =>
          (parallel_record (.classDefined name (base.map (·.2)))).bind fun _ _ =>
            (parallel_pure fun _ => trivial :
              Parallel strict Value.Sound (pure Value.null) (pure Value.null))
  unfold defineClass
  split
  · exact hrest none
  · refine (parallel_lookup_class _).bind fun id _ => ?_
    refine parallel_heap.bind fun heap _ => ?_
    dsimp only
    split
    · exact parallel_raise_then _ _
    · exact hrest (some (id, (heap.classDef id).name))

theorem parallel_record_fields (definition : ClassDef) (fields : List (String × Expr))
    {bound : Table Value} (hbound : strict → bound.Sound) :
    Parallel strict Table.Sound (recordFields ev definition fields bound)
      (recordFields other definition fields bound) := by
  induction fields generalizing bound with
  | nil => exact parallel_pure hbound
  | cons field fields ih =>
      unfold recordFields
      split
      · exact parallel_raise_then _ _
      · refine (hev field.2).bind fun value hvalue => ih fun hstrict => ?_
        exact (hbound hstrict).insert field.1 (hvalue hstrict)

theorem parallel_new_record (className : String) (fields : List (String × Expr)) :
    Parallel strict Value.Sound (newRecord ev className fields)
      (newRecord other className fields) := by
  refine (parallel_lookup_class className).bind fun id _ => ?_
  refine parallel_heap.bind fun heap hheap => ?_
  dsimp only
  split
  · exact parallel_raise_then _ _
  · refine (parallel_record_fields hev _ fields fun hstrict =>
      (hheap hstrict).field_defaults id).bind fun bound hbound => ?_
    have hfields (hstrict : strict) : Instance.Sound ⟨id, bound⟩ := hbound hstrict
    exact (parallel_perform fun hstrict => keeps_new_instance (hfields hstrict)).bind
      fun object _ => parallel_pure fun _ => trivial

/-! ## Collections -/

/-- The members of a set that is written out have been checked, and differ. -/
theorem parallel_set_items (exprs : List Expr) {keys : List Value}
    (hkeys : strict → Keys.Sound keys) :
    Parallel strict Keys.Sound (setItems ev exprs keys) (setItems other exprs keys) := by
  induction exprs generalizing keys with
  | nil => exact parallel_pure hkeys
  | cons expr exprs ih =>
      refine (hev expr).bind fun key hkey => ?_
      refine (parallel_perform fun _ => keeps_ensure_hashable key).bind fun _ hhashable => ?_
      exact ih fun hstrict => (hkeys hstrict).insert (hhashable hstrict) (hkey hstrict)

theorem parallel_dict_pairs (pairs : List (Expr × Expr)) {dict : Dict}
    (hdict : strict → dict.Sound) :
    Parallel strict Dict.Sound (dictPairs ev pairs dict) (dictPairs other pairs dict) := by
  induction pairs generalizing dict with
  | nil => exact parallel_pure hdict
  | cons pair pairs ih =>
      refine (hev pair.1).bind fun key hkey => ?_
      refine (parallel_perform fun _ => keeps_ensure_hashable key).bind fun _ hhashable => ?_
      refine (hev pair.2).bind fun value hvalue => ih fun hstrict => ?_
      exact (hdict hstrict).insert (hhashable hstrict) (hkey hstrict) (hvalue hstrict)

theorem parallel_comprehension_items (element : Expr) (binder : String) {items done : List Value}
    (hitems : strict → ∀ item ∈ items, item.Sound)
    (hdone : strict → ∀ value ∈ done, value.Sound) :
    Parallel strict (fun found => ∀ value ∈ found, value.Sound)
      (comprehensionItems ev element binder items done)
      (comprehensionItems other element binder items done) := by
  induction items generalizing done with
  | nil =>
      exact parallel_pure fun hstrict value hvalue =>
        hdone hstrict value (List.mem_reverse.mp hvalue)
  | cons item items ih =>
      have hrest (hstrict : strict) := List.forall_mem_cons.mp (hitems hstrict)
      refine (parallel_bind_name binder fun hstrict => (hrest hstrict).1).bind fun _ _ => ?_
      refine (hev element).bind fun value hvalue => ?_
      exact ih (fun hstrict => (hrest hstrict).2) fun hstrict =>
        List.forall_mem_cons.mpr ⟨hvalue hstrict, hdone hstrict⟩

theorem parallel_comprehension (element : Expr) (binder : String) (iterable : Expr) :
    Parallel strict Value.Sound (comprehension ev element binder iterable)
      (comprehension other element binder iterable) := by
  rintro state _ ⟨log, hstate⟩
  have hsource := parallel_source_items hev iterable state _ ⟨log, hstate⟩
  rw [comprehension_run, comprehension_run]
  generalize sourceItems ev iterable state = first at hsource ⊢
  generalize sourceItems other iterable (state.withLog log) = second at hsource ⊢
  cases hsource with
  | error hexit halike => exact .error hexit halike
  | ok hitems halike =>
      obtain ⟨log', hmiddle⟩ := halike
      rename_i items middle
      dsimp only
      -- The elements are evaluated in the scope from before, on the heap that the source left.
      have hcopy : Alike strict { middle with scope := state.scope }
          { middle.withLog log' with scope := (state.withLog log).scope } := by
        refine ⟨log', fun hstrict => ⟨⟨?_, (hmiddle hstrict).1.heap⟩, (hmiddle hstrict).2⟩⟩
        exact (hstate hstrict).1.scope
      have hnone : strict → ∀ value ∈ ([] : List Value), value.Sound := fun _ => nofun
      have hfound := parallel_comprehension_items hev element binder hitems hnone _ _ hcopy
      have hback {left left' : EvalState} (halike : Alike strict left left') :
          Alike strict { left with scope := middle.scope }
            { left' with scope := (middle.withLog log').scope } := by
        obtain ⟨log'', hleft⟩ := halike
        refine ⟨log'', fun hstrict => ⟨⟨?_, (hleft hstrict).1.heap⟩, (hleft hstrict).2⟩⟩
        exact (hmiddle hstrict).1.scope
      generalize comprehensionItems ev element binder items []
        { middle with scope := state.scope } = third at hfound ⊢
      generalize comprehensionItems other element binder items []
        { middle.withLog log' with scope := (state.withLog log).scope } = fourth at hfound ⊢
      cases hfound with
      | error hexit halike => exact .error hexit (hback halike)
      | ok hfound halike =>
          refine parallel_perform (fun hstrict => ?_) _ _ (hback halike)
          exact keeps_new_list (.of_list (hfound hstrict))

/-! ## All rules -/

/-- The rule of every construct. -/
theorem parallel_step (fuel : Nat) (expr : Expr) :
    Parallel strict Value.Sound (step ev fuel expr) (step other fuel expr) := by
  have hnull : Parallel strict Value.Sound (pure .null) (pure .null) :=
    parallel_pure fun _ => trivial
  cases expr with
  | int | string | bytes | bool | null => exact parallel_pure fun _ => trivial
  | float x => exact parallel_perform fun _ => keeps_new_float x
  | imaginary x => exact parallel_perform fun _ => keeps_new_complex 0.0 x
  | name name => exact parallel_lookup name
  | binary operator left right => exact parallel_binary hev operator left right
  | unary operator operand =>
      exact (hev operand).bind fun value _ => parallel_perform fun _ => operator.keeps_apply value
  | letBind name value | typedLet name _ value =>
      refine (hev value).bind fun result hresult => ?_
      exact (parallel_bind_name name hresult).bind fun _ _ => hnull
  | constBind name value =>
      refine (hev value).bind fun result hresult => ?_
      exact (parallel_bind_constant name hresult).bind fun _ _ => hnull
  | assign name value =>
      refine (hev value).bind fun result hresult => ?_
      exact (parallel_bind_name name hresult).bind fun _ _ => parallel_pure hresult
  | assignIndex collection index value =>
      exact parallel_assign_index hev collection index value
  | assignAttribute object name value => exact parallel_assign_attribute hev object name value
  | destructure names value => exact parallel_destructure hev names value
  | block exprs => exact parallel_body hev exprs
  | ifThen test thenBody elseBranch => exact parallel_if_then hev test thenBody elseBranch
  | whileLoop test exprs => exact parallel_while_rounds hev test exprs fuel fun _ => trivial
  | forLoop binder iterable exprs => exact parallel_for_loop hev binder iterable exprs
  | matchOn subject arms =>
      exact (hev subject).bind fun value _ => parallel_match_arms hev value arms
  | tryCatch exprs binder handler => exact parallel_try_catch hev exprs binder handler
  | «throwError» value cause => exact parallel_throw_value hev value cause
  | returnValue value => exact parallel_return_value hev value
  | breakLoop | continueLoop => exact parallel_throw fun _ => trivial
  | defineFunction name parameters exprs => exact parallel_define_function name parameters exprs
  | defineClass name bases members => exact parallel_define_class hev name bases members
  | defineStruct name fields => exact parallel_define_struct name fields
  | defineEnum name variants => exact parallel_define_enum name variants
  | call callee items => exact parallel_call hev callee items
  | index collection place =>
      refine (hev collection).bind fun collection hcollection => (hev place).bind fun place _ => ?_
      exact parallel_perform fun hstrict => Builtin.keeps_get_item (hcollection hstrict) place
  | getAttribute object name | ownField object name =>
      exact (hev object).bind fun object hobject => parallel_get_attribute hobject name
  | methodCall object method items => exact parallel_method_call hev object method items
  | newObject className items =>
      refine (parallel_lookup_class className).bind fun id _ => ?_
      exact (parallel_values hev items).bind fun arguments harguments =>
        parallel_instantiate hev id harguments
  | newRecord className fields => exact parallel_new_record hev className fields
  | enumVariant enumName variant => exact parallel_enum_variant enumName variant
  | list items =>
      exact (parallel_values hev items).bind fun values hvalues =>
        parallel_perform fun hstrict => keeps_new_list (.of_list (hvalues hstrict))
  | tuple items =>
      exact (parallel_values hev items).bind fun values hvalues =>
        parallel_perform fun hstrict => keeps_new_tuple (hvalues hstrict)
  | set items =>
      exact (parallel_set_items hev items fun _ => .nil).bind fun keys hkeys =>
        parallel_perform fun hstrict => keeps_new_set (hkeys hstrict)
  | dict pairs =>
      exact (parallel_dict_pairs hev pairs fun _ => .empty).bind fun dict hdict =>
        parallel_perform fun hstrict => keeps_new_dict (hdict hstrict)
  | comprehension element binder iterable =>
      exact parallel_comprehension hev element binder iterable
  | importModule target => exact parallel_import_module target

omit hev in
/-- What an evaluation does is the same whatever has been logged before, and it keeps sound states
sound. -/
theorem parallel_evaluate (fuel : Nat) (expr : Expr) :
    Parallel strict Value.Sound (evaluate fuel expr) (evaluate fuel expr) := by
  induction fuel generalizing expr with
  | zero => exact parallel_throw fun _ => trivial
  | succ fuel ih => exact parallel_step ih fuel expr

end Eval

namespace Interpreter

open Eval EvalState Script.Action

variable {strict : Prop}

/-- Faults are made errors in the same way on both sides. -/
theorem ends_raise_faults {run run' : Eval Value} {state state' : EvalState}
    (h : Ends strict Value.Sound (run state) (run' state')) :
    Ends strict Value.Sound (raiseFaults run state) (raiseFaults run' state') := by
  have hnew (kind : ErrorKind) (arguments : List String) :
      Parallel strict Value.Sound
        (do let error ← Eval.perform (newError kind arguments)
            throw (.thrown error))
        (do let error ← Eval.perform (newError kind arguments)
            throw (.thrown error)) :=
    (parallel_perform fun _ => keeps_new_error kind arguments).bind fun _ _ =>
      parallel_throw fun _ => trivial
  unfold raiseFaults
  dsimp only
  generalize run state = first at h ⊢
  generalize run' state' = second at h ⊢
  cases h with
  | ok hresult halike => exact .ok hresult halike
  | error hexit halike =>
      rename_i exit after after'
      cases exit with
      | thrown error => exact .error hexit halike
      | jump jump => exact .error hexit halike
      | outOfFuel => exact .error hexit halike
      | fault fault =>
          cases fault with
          | recursion => exact hnew _ _ after after' halike
          | memory => exact hnew _ _ after after' halike
          | overflow message => exact hnew _ _ after after' halike
          | _ => exact .error hexit halike

/-- What a whole program does is the same whatever has been logged before, and it keeps sound
states sound. -/
theorem parallel_program (fuel : Nat) (program : Program) :
    Parallel strict Value.Sound (raiseFaults (atBoundary (body (evaluate fuel) program)))
      (raiseFaults (atBoundary (body (evaluate fuel) program))) := by
  intro state state' halike
  refine ends_raise_faults (.at_boundary ?_)
  exact parallel_body (parallel_evaluate fuel) program state state' halike

end Interpreter

end Script
