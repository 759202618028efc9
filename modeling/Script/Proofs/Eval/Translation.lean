import Script.Proofs.Builtin.Blind
import Script.Proofs.Eval.Calls
import Script.Proofs.Eval.Sequence
import Script.Proofs.Expr.Rewrite
import Script.Proofs.Heap.Classes

/-!
# Carrying runs over to other programs

A translation rewrites the expressions of a program and the bodies of the functions in its heap,
and raises the limit on the depth of calls. `Eval.Carries` says that an evaluation is carried over:
what it does on a state, another evaluation does on the translated state, up to translation, unless
it ends at a limit that is raised (`Translation.Lifts`). Every rule is carried over if the
evaluation of its parts is (`Eval.carried_step`). A program can go on after it has met the limit, in
two ways: a call that is refused raises an error, and a handler makes an error of the fault that a
value is nested too deeply. So the conditions are that the rule makes no such call and that no part
of it ends with this fault, unless the limit stays as it is.
-/

namespace Script

/-! ## Translated states -/

namespace Store

variable {α β : Type}

/-- The store with the contents of all objects changed. -/
def map (change : α → β) (store : Store α) : Store β :=
  ⟨store.cells.map change⟩

theorem get_map [Inhabited α] [Inhabited β] {change : α → β} (h : change default = default)
    (store : Store α) (id : Nat) : (store.map change).get id = change (store.get id) := by
  simp only [map, get, Array.getD_eq_getD_getElem?, Array.getElem?_map]
  cases store.cells[id]? with
  | none => exact h.symm
  | some contents => rfl

theorem map_push (change : α → β) (store : Store α) (contents : α) :
    (store.push contents).map change = (store.map change).push (change contents) := by
  simp [map, push]

theorem next_map (change : α → β) (store : Store α) : (store.map change).next = store.next := by
  simp [map, next]

theorem map_id {change : α → α} (h : ∀ contents, change contents = contents) (store : Store α) :
    store.map change = store := by
  obtain rfl : change = id := funext h
  simp [map]

end Store

/-- The function with its body rewritten. -/
def FunctionDef.mapBody (rewrite : Expr → Expr) (definition : FunctionDef) : FunctionDef :=
  { definition with body := definition.body.map rewrite }

/-- The heap with the bodies of all functions rewritten. -/
def Heap.mapBodies (rewrite : Expr → Expr) (heap : Heap) : Heap :=
  { heap with functions := heap.functions.map (FunctionDef.mapBody rewrite) }

theorem Heap.function_map_bodies (rewrite : Expr → Expr) (heap : Heap) (id : FunctionId) :
    (heap.mapBodies rewrite).function id = (heap.function id).mapBody rewrite := by
  have hdefault : FunctionDef.mapBody rewrite default = default := rfl
  exact Store.get_map hdefault heap.functions id

/-- A way of rewriting programs that keeps all constructs, but may take the type from a binding, and
a limit on the depth of calls with one that is not lower. There may be more fuel too. -/
structure Translation where
  rewrite : Expr → Expr
  limit : Nat
  newLimit : Nat
  limit_le : limit ≤ newLimit
  moreFuel : Prop
  parts (expr : Expr) (h : ∀ bound typeName value, expr ≠ .typedLet bound typeName value) :
    rewrite expr = expr.mapParts rewrite
  typed (bound typeName : String) (value : Expr) :
    rewrite (.typedLet bound typeName value) = .letBind bound (rewrite value) ∨
      rewrite (.typedLet bound typeName value) = .typedLet bound typeName (rewrite value)

/-- The ends of an evaluation after which the translated one may end in another way: it has met a
limit that is raised. -/
inductive Translation.Lifts (translation : Translation) : Exit → Prop where
  | depth (h : translation.limit < translation.newLimit) : Lifts translation (.fault .recursion)
  | fuel (h : translation.moreFuel) : Lifts translation .outOfFuel

/-- The translated heap. -/
def Translation.heap (translation : Translation) (heap : Heap) : Heap :=
  (heap.mapBodies translation.rewrite).withLimit translation.newLimit

/-- The translated world. -/
def Translation.world (translation : Translation) (world : World) : World :=
  { world with heap := translation.heap world.heap }

/-- The translated state. -/
def Translation.state (translation : Translation) (state : EvalState) : EvalState :=
  ⟨state.scope, translation.world state.world⟩

/-- The translated interpreter. -/
def Translation.interpreter (translation : Translation) (interpreter : Interpreter) :
    Interpreter :=
  ⟨interpreter.globals, translation.world interpreter.world⟩

namespace Translation

/-- Names are rewritten to themselves, and nothing else is rewritten to a name. -/
theorem rewrite_eq_name_iff (translation : Translation) {expr : Expr} {name : String} :
    translation.rewrite expr = .name name ↔ expr = .name name := by
  by_cases h : ∃ bound typeName value, expr = .typedLet bound typeName value
  · obtain ⟨bound, typeName, value, rfl⟩ := h
    obtain htyped | htyped := translation.typed bound typeName value <;> simp [htyped]
  · simp only [not_exists] at h
    rw [translation.parts expr h]
    cases expr <;> simp [Expr.mapParts]

variable (translation : Translation) (heap : Heap) (state : EvalState) (id : FunctionId)

theorem recasts (hlimit : heap.maxDepth = translation.limit) :
    heap.Recasts (heap.mapBodies translation.rewrite).functions translation.newLimit where
  names id := by
    show ((heap.mapBodies translation.rewrite).function id).name = (heap.function id).name
    rw [heap.function_map_bodies]
    rfl
  limit := hlimit ▸ translation.limit_le

theorem instance_of_heap (id : InstanceId) :
    (translation.heap heap).instanceOf id = heap.instanceOf id :=
  rfl

theorem class_def_heap (id : ClassId) : (translation.heap heap).classDef id = heap.classDef id :=
  rfl

theorem class_of_heap (id : InstanceId) : (translation.heap heap).classOf id = heap.classOf id :=
  rfl

theorem find_method_heap (id : ClassId) (name : String) :
    (translation.heap heap).findMethod? id name = heap.findMethod? id name :=
  have hclasses : (translation.heap heap).classes = heap.classes := rfl
  Heap.find_method_congr hclasses id name

theorem find_field_heap (id : ClassId) (name : String) :
    (translation.heap heap).findField? id name = heap.findField? id name :=
  have hclasses : (translation.heap heap).classes = heap.classes := rfl
  Heap.find_field_congr hclasses id name

theorem field_defaults_heap (id : ClassId) :
    (translation.heap heap).fieldDefaults id = heap.fieldDefaults id :=
  have hclasses : (translation.heap heap).classes = heap.classes := rfl
  Heap.field_defaults_congr hclasses id

theorem function_state : (translation.state state).world.heap.function id =
    (state.world.heap.function id).mapBody translation.rewrite :=
  state.world.heap.function_map_bodies translation.rewrite id

theorem function_name_state : ((translation.state state).world.heap.function id).name =
    (state.world.heap.function id).name := by
  rw [function_state]
  rfl

theorem function_body_state : ((translation.state state).world.heap.function id).body =
    (state.world.heap.function id).body.map translation.rewrite := by
  rw [function_state]
  rfl

theorem open_parameters_state (receiver : Option InstanceId) :
    ((translation.state state).world.heap.function id).openParameters receiver =
      (state.world.heap.function id).openParameters receiver := by
  rw [function_state]
  rfl

theorem frame_state (receiver : Option InstanceId) (items : List Value) :
    (translation.state state).frame id receiver items = state.frame id receiver items := by
  unfold EvalState.frame
  rw [open_parameters_state]
  rfl

end Translation

namespace Eval

variable {α β : Type}

/-- An evaluation has ended under the old limit, and another in the same way and in the translated
state, unless the first one has met a limit that is raised. -/
inductive Carried (translation : Translation) (outcome other : Except Exit α × EvalState) :
    Prop where
  | same (eq : other = (outcome.1, translation.state outcome.2))
      (limit : outcome.2.world.maxDepth = translation.limit) : Carried translation outcome other
  | lifted {exit : Exit} (lifts : translation.Lifts exit) (eq : outcome.1 = .error exit) :
      Carried translation outcome other

/-- What an evaluation does under the old limit, another does on the translated state. -/
def Carries (translation : Translation) (part other : Eval α) : Prop :=
  ∀ state, state.world.maxDepth = translation.limit →
    Carried translation (part state) (other (translation.state state))

variable {translation : Translation} {state : EvalState}

/-! ## The parts of a rule -/

theorem Carried.result (result : Except Exit α)
    (h : state.world.maxDepth = translation.limit) :
    Carried translation (result, state) (result, translation.state state) :=
  .same rfl h

/-- What looks at how an evaluation has ended, and passes on that a limit was met. -/
theorem Carried.map {outcome other : Except Exit α × EvalState}
    (h : Carried translation outcome other)
    (finish finish' : Except Exit α × EvalState → Except Exit β × EvalState)
    (hsame : ∀ result after, after.world.maxDepth = translation.limit →
      Carried translation (finish (result, after)) (finish' (result, translation.state after)))
    (hlifted : ∀ exit after, translation.Lifts exit →
      (finish (.error exit, after)).1 = .error exit) :
    Carried translation (finish outcome) (finish' other) := by
  obtain ⟨result, after⟩ := outcome
  cases h with
  | same heq hlimit =>
      subst heq
      exact hsame result after hlimit
  | lifted hlifts heq =>
      subst heq
      exact .lifted hlifts (hlifted _ after hlifts)

/-- What follows has to be looked at only where the first part leads. -/
theorem Carried.bind {part part' : Eval α} {next next' : α → Eval β}
    (hpart : Carried translation (part state) (part' (translation.state state)))
    (hnext : ∀ result after, part state = (.ok result, after) →
      after.world.maxDepth = translation.limit →
        Carried translation (next result after) (next' result (translation.state after))) :
    Carried translation ((part >>= next) state) ((part' >>= next') (translation.state state)) := by
  rw [run_bind, run_bind]
  rcases hrun : part state with ⟨exit | result, after⟩
  · rw [hrun] at hpart
    cases hpart with
    | same heq hlimit =>
        rw [heq]
        exact .result (.error exit) hlimit
    | lifted hlifts heq =>
        cases heq
        exact .lifted hlifts rfl
  · rw [hrun] at hpart
    cases hpart with
    | same heq hlimit =>
        rw [heq]
        exact hnext result after hrun hlimit
    | lifted _ heq => cases heq

theorem Carries.bind {part part' : Eval α} {next next' : α → Eval β}
    (hpart : Carries translation part part')
    (hnext : ∀ result, Carries translation (next result) (next' result)) :
    Carries translation (part >>= next) (part' >>= next') :=
  fun state hlimit => (hpart state hlimit).bind fun result after _ => hnext result after

theorem carries_pure (result : α) : Carries translation (pure result) (pure result) :=
  fun _ hlimit => .result _ hlimit

theorem carries_throw (exit : Exit) :
    Carries translation (throw exit : Eval α) (throw exit) :=
  fun _ hlimit => .result _ hlimit

/-- What looks at the state. -/
theorem carries_get {next next' : EvalState → Eval β}
    (h : ∀ state, state.world.maxDepth = translation.limit →
      Carries translation (next state) (next' (translation.state state))) :
    Carries translation (get >>= next) (get >>= next') :=
  fun state hlimit => h state hlimit state hlimit

theorem Carried.read_heap {next next' : Heap → Eval β}
    (h : Carried translation (next state.world.heap state)
      (next' (translation.heap state.world.heap) (translation.state state))) :
    Carried translation ((heap >>= next) state) ((heap >>= next') (translation.state state)) :=
  h

/-- What looks at the heap. -/
theorem carries_heap {next next' : Heap → Eval β}
    (h : ∀ heap, Carries translation (next heap) (next' (translation.heap heap))) :
    Carries translation (heap >>= next) (heap >>= next') :=
  fun state hlimit => h state.world.heap state hlimit

theorem carries_scope : Carries translation scope scope :=
  fun _ hlimit => .result _ hlimit

theorem carries_set_scope (scope : Scope) :
    Carries translation (setScope scope) (setScope scope) :=
  fun _ hlimit => .result _ hlimit

theorem carries_record (event : LogEvent) : Carries translation (record event) (record event) :=
  fun _ hlimit => .result _ hlimit

/-- An operation that does not look into functions is carried over, unless it meets a value that is
nested too deeply under the old limit. -/
theorem carries_perform {action : Action α} (h : action.Blind) :
    Carries translation (perform action) (perform action) := by
  intro state hlimit
  have hother := h state.world.heap _ _ (translation.recasts state.world.heap hlimit)
  unfold perform
  obtain hother | ⟨hlt, hdeep⟩ := hother
  · rw [show (translation.state state).world.heap = state.world.heap.recast _ _ from rfl, hother]
    rcases hrun : action state.world.heap with failure | ⟨result, after⟩
    · rcases failure with ⟨kind, message⟩ | fault
      · exact .result _ hlimit
      · exact .result _ hlimit
    · obtain ⟨hfunctions, hdepth⟩ := h.keeps hrun
      refine .same ?_ (hdepth.trans hlimit)
      show (_, EvalState.mk _ _) = (_, EvalState.mk _ _)
      rw [Heap.mapBodies, ← hfunctions]
      rfl
  · rw [hdeep]
    exact .lifted (.depth (hlimit ▸ hlt)) rfl

theorem carries_raise (kind : ErrorKind) (message : String) :
    Carries translation (raise kind message : Eval α) (raise kind message) :=
  carries_perform (Action.blind_raise kind message)

/-- A test of the same condition, however it is decided. -/
theorem carries_ite {condition : Prop} {decided decided' : Decidable condition}
    {yes yes' no no' : Eval α} (hyes : Carries translation yes yes')
    (hno : Carries translation no no') :
    Carries translation (@ite _ condition decided yes no) (@ite _ condition decided' yes' no') := by
  by_cases h : condition
  · simpa only [if_pos h] using hyes
  · simpa only [if_neg h] using hno

/-- A check that may raise an error, and what follows it. -/
theorem carries_check {condition : Prop} {decided decided' : Decidable condition}
    {next next' : Eval α} (kind : ErrorKind) (message : String)
    (hnext : Carries translation next next') :
    Carries translation
      (@ite _ condition decided ((raise kind message : Eval PUnit) >>= fun _ => next) next)
      (@ite _ condition decided' ((raise kind message : Eval PUnit) >>= fun _ => next') next') :=
  carries_ite ((carries_raise kind message).bind fun _ => hnext) hnext

/-! ## Names and bindings -/

theorem carries_check_writable (name : String) :
    Carries translation (checkWritable name) (checkWritable name) := by
  have hconstant : Carries translation
      (do if (← scope).isConstant name then
            raise .typeError s!"cannot reassign constant '{name}'")
      (do if (← scope).isConstant name then
            raise .typeError s!"cannot reassign constant '{name}'") := by
    refine carries_scope.bind fun scope => ?_
    split
    · exact carries_raise _ _
    · exact carries_pure ()
  unfold checkWritable
  by_cases hfrozen : (frozenValue? name).isSome
  · simp only [hfrozen, if_true]
    exact (carries_raise _ _).bind fun _ => hconstant
  · simp only [hfrozen]
    exact hconstant

theorem carries_bind_name (name : String) (value : Value) :
    Carries translation (bindName name value) (bindName name value) :=
  (carries_check_writable name).bind fun _ =>
    carries_scope.bind fun _ => carries_set_scope _

theorem carries_bind_constant (name : String) (value : Value) :
    Carries translation (bindConstant name value) (bindConstant name value) :=
  (carries_check_writable name).bind fun _ =>
    carries_scope.bind fun _ => carries_set_scope _

theorem carries_bind_all (pairs : List (String × Value)) :
    Carries translation (bindAll pairs) (bindAll pairs) := by
  induction pairs with
  | nil => exact carries_pure ()
  | cons pair pairs ih => exact (carries_bind_name pair.1 pair.2).bind fun _ => ih

theorem carries_lookup (name : String) : Carries translation (lookup name) (lookup name) := by
  refine carries_get fun state _ => ?_
  have hother : (translation.state state).world.lookup? (translation.state state).scope name =
      state.world.lookup? state.scope name := rfl
  rw [hother]
  split
  · exact carries_pure _
  · exact carries_raise _ _

theorem carries_lookup_class (name : String) :
    Carries translation (lookupClass name) (lookupClass name) := by
  refine carries_get fun state _ => ?_
  dsimp only [Translation.state, Translation.world]
  split
  · exact carries_raise _ _
  · exact carries_raise _ _
  · exact carries_pure _
  · exact carries_raise _ _

/-! ## Objects and definitions -/

theorem carries_instance_attribute (id : InstanceId) (name : String) :
    Carries translation (instanceAttribute id name) (instanceAttribute id name) := by
  refine carries_heap fun heap => ?_
  simp only [translation.instance_of_heap, translation.class_of_heap, translation.find_method_heap,
    translation.find_field_heap]
  split
  · exact carries_pure _
  · split
    · exact carries_perform (Action.blind_bind Action.blind_new_mark fun _ => Action.blind_pure _)
    · exact carries_raise _ _

theorem carries_class_attribute (id : ClassId) (name : String) :
    Carries translation (classAttribute id name) (classAttribute id name) := by
  refine carries_heap fun heap => ?_
  simp only [translation.class_def_heap, translation.find_method_heap, translation.find_field_heap]
  refine carries_ite (carries_ite (carries_pure _) (carries_raise _ _)) ?_
  split
  · exact carries_pure _
  · exact carries_raise _ _

theorem carries_get_attribute (object : Value) (name : String) :
    Carries translation (getAttribute object name) (getAttribute object name) := by
  unfold getAttribute
  split
  · exact carries_instance_attribute _ name
  · exact carries_class_attribute _ name
  · exact carries_perform (Builtin.blind_get_attribute _ name)

theorem carries_set_attribute (object : Value) (name : String) (value : Value) :
    Carries translation (setAttribute object name value) (setAttribute object name value) := by
  refine carries_heap fun heap => ?_
  split
  · exact carries_check _ _ (carries_perform (Action.blind_set_field _ name value))
  · exact carries_raise _ _

/-- A function is defined with its body rewritten. -/
theorem carries_make_function (name : String) (parameters : List String) (exprs : List Expr) :
    Carries translation (makeFunction name parameters exprs)
      (makeFunction name parameters (exprs.map translation.rewrite)) := by
  unfold makeFunction
  split
  · exact carries_raise _ _
  · intro state hlimit
    let functions := state.world.heap.functions
    let rewritten := functions.map (FunctionDef.mapBody translation.rewrite)
    have hpushed : (functions.push ⟨name, parameters, exprs⟩).map
        (FunctionDef.mapBody translation.rewrite) =
          rewritten.push ⟨name, parameters, exprs.map translation.rewrite⟩ :=
      Store.map_push _ functions _
    let newHeap (functions : Store FunctionDef) : EvalState :=
      (translation.state state).withHeap (state.world.heap.recast functions translation.newLimit)
    refine .same ?_ hlimit
    show ((.ok rewritten.next : Except Exit FunctionId), newHeap (rewritten.push _)) =
      (.ok functions.next, newHeap ((functions.push ⟨name, parameters, exprs⟩).map _))
    rw [Store.next_map, hpushed]

theorem carries_add_class (definition : ClassDef) :
    Carries translation (addClass definition) (addClass definition) :=
  (carries_perform (Action.blind_new_class definition)).bind fun _ _ hlimit => .result _ hlimit

theorem carries_define_function (name : String) (parameters : List String) (exprs : List Expr) :
    Carries translation (defineFunction name parameters exprs)
      (defineFunction name parameters (exprs.map translation.rewrite)) :=
  (carries_make_function name parameters exprs).bind fun _ =>
    Carries.bind (fun _ hlimit => .result (.ok ()) hlimit) fun _ => carries_pure _

theorem carries_define_struct (name : String) (fields : List String) :
    Carries translation (defineStruct name fields) (defineStruct name fields) :=
  (carries_add_class _).bind fun _ => (carries_record _).bind fun _ => carries_pure _

theorem carries_define_enum (name : String) (variants : List String) :
    Carries translation (defineEnum name variants) (defineEnum name variants) :=
  (carries_add_class _).bind fun _ => (carries_record _).bind fun _ => carries_pure _

theorem carries_enum_variant (enumName variant : String) :
    Carries translation (enumVariant enumName variant) (enumVariant enumName variant) := by
  refine (carries_lookup_class enumName).bind fun id => carries_heap fun heap => ?_
  exact carries_check _ _ (carries_class_attribute id variant)

theorem carries_import_module (target : String) :
    Carries translation (importModule target) (importModule target) :=
  (carries_record _).bind fun _ => (carries_perform (Action.blind_new_dict _)).bind fun dict =>
    (carries_bind_name _ dict).bind fun _ => carries_pure _

/-! ## Input and output -/

theorem carries_on_console (use : Console → Except StreamFault α × Console) :
    Carries translation (onConsole use) (onConsole use) := by
  intro state hlimit
  have hconsole : (translation.state state).world.console = state.world.console := rfl
  rw [on_console_run, on_console_run, hconsole]
  rcases use state.world.console with ⟨fault | result, console⟩
  · cases fault with
    | system reason => exact carries_raise _ _ (state.withConsole console) hlimit
    | closed | undecodable | unencodable => exact .result _ hlimit
  · exact .result _ hlimit

/-- What `input` does after its prompt. -/
theorem carries_answer :
    Carries translation
      (do
        let line ← readLine
        if line.isEmpty then raise .eofError "EOF when reading a line"
        return Value.str
          (String.ofList (Text.trimRightBy (fun c => c = '\r' || c = '\n') line)))
      (do
        let line ← readLine
        if line.isEmpty then raise .eofError "EOF when reading a line"
        return Value.str
          (String.ofList (Text.trimRightBy (fun c => c = '\r' || c = '\n') line))) :=
  (carries_on_console _).bind fun _ => carries_check _ _ (carries_pure _)

theorem carries_call_builtin (function : BuiltinFunction) (items : List Value) :
    Carries translation (callBuiltin function items) (callBuiltin function items) := by
  cases function with
  | print =>
      exact (carries_perform (Action.blind_map_m Action.blind_display items)).bind fun texts =>
        (carries_on_console _).bind fun _ => carries_pure _
  | input =>
      refine (carries_perform (Builtin.blind_check_count "input" items.length 0 1)).bind
        fun _ => ?_
      cases items with
      | nil => exact carries_answer
      | cons prompt items =>
          exact (carries_perform (Action.blind_display prompt)).bind fun text =>
            (carries_on_console _).bind fun _ => carries_answer
  | _ => exact carries_perform (Builtin.blind_compute _ items)

/-! ## Parts in a row -/

section Rules

variable {ev other : Evaluator}
  (hev : ∀ part, Carries translation (ev part) (other (translation.rewrite part)))
include hev

theorem carries_statements (exprs : List Expr) (last : Value) :
    Carries translation (statements ev exprs last)
      (statements other (exprs.map translation.rewrite) last) := by
  induction exprs generalizing last with
  | nil => exact carries_pure last
  | cons expr exprs ih => exact (hev expr).bind ih

theorem carries_body (exprs : List Expr) :
    Carries translation (body ev exprs) (body other (exprs.map translation.rewrite)) :=
  carries_statements hev exprs .null

theorem carries_values (exprs : List Expr) :
    Carries translation (values ev exprs) (values other (exprs.map translation.rewrite)) := by
  induction exprs with
  | nil => exact carries_pure []
  | cons expr exprs ih => exact (hev expr).bind fun _ => ih.bind fun _ => carries_pure _

theorem carries_condition (expr : Expr) :
    Carries translation (condition ev expr) (condition other (translation.rewrite expr)) :=
  (hev expr).bind fun value => carries_perform (Action.blind_is_truthy value)

theorem carries_set_items (exprs : List Expr) (keys : List Value) :
    Carries translation (setItems ev exprs keys)
      (setItems other (exprs.map translation.rewrite) keys) := by
  induction exprs generalizing keys with
  | nil => exact carries_pure keys
  | cons expr exprs ih =>
      exact (hev expr).bind fun key =>
        (carries_perform (Action.blind_ensure_hashable key)).bind fun _ => ih _

theorem carries_dict_pairs (pairs : List (Expr × Expr)) (dict : Dict) :
    Carries translation (dictPairs ev pairs dict)
      (dictPairs other
        (pairs.map fun pair => (translation.rewrite pair.1, translation.rewrite pair.2)) dict) := by
  induction pairs generalizing dict with
  | nil => exact carries_pure dict
  | cons pair pairs ih =>
      exact (hev pair.1).bind fun key =>
        (carries_perform (Action.blind_ensure_hashable key)).bind fun _ =>
          (hev pair.2).bind fun value => ih _

theorem carries_record_fields (definition : ClassDef) (fields : List (String × Expr))
    (bound : Table Value) :
    Carries translation (recordFields ev definition fields bound)
      (recordFields other definition
        (fields.map fun field => (field.1, translation.rewrite field.2)) bound) := by
  induction fields generalizing bound with
  | nil => exact carries_pure bound
  | cons field fields ih => exact carries_check _ _ ((hev field.2).bind fun value => ih _)

theorem carries_new_record (className : String) (fields : List (String × Expr)) :
    Carries translation (newRecord ev className fields)
      (newRecord other className
        (fields.map fun field => (field.1, translation.rewrite field.2))) := by
  refine (carries_lookup_class className).bind fun id => carries_heap fun heap => ?_
  simp only [translation.class_def_heap, translation.field_defaults_heap]
  exact carries_check _ _ ((carries_record_fields hev _ fields _).bind fun bound =>
    (carries_perform (Action.blind_new_instance _)).bind fun _ => carries_pure _)

theorem carries_class_members (members : List Expr) (definition : ClassDef) :
    Carries translation (classMembers ev members definition)
      (classMembers other (members.map translation.rewrite) definition) := by
  fun_induction classMembers ev members definition with
  | case1 definition => exact carries_pure definition
  | case2 name parameters exprs rest definition ih =>
      rw [List.map_cons, translation.parts (.defineFunction name parameters exprs) (by simp)]
      exact (carries_make_function name parameters exprs).bind ih
  | case3 name value rest definition ih =>
      rw [List.map_cons, translation.parts (.assign name value) (by simp)]
      exact (hev value).bind ih
  | case4 name value rest definition ih =>
      rw [List.map_cons, translation.parts (.letBind name value) (by simp)]
      exact (hev value).bind ih
  | case5 name typeName value rest definition ih =>
      rw [List.map_cons]
      obtain htyped | htyped := translation.typed name typeName value
      · rw [htyped]
        exact (hev value).bind ih
      · rw [htyped]
        exact (hev value).bind ih
  | case6 member rest definition hfunction hassign hlet htyped =>
      rw [List.map_cons, translation.parts member htyped]
      have hother : classMembers other
          (member.mapParts translation.rewrite :: rest.map translation.rewrite) definition =
          raise .syntaxError "class body may only contain methods and field defaults" := by
        cases member <;> first | rfl | simp at hfunction hassign hlet htyped
      rw [hother]
      exact carries_raise _ _

/-! ## Calls -/

omit hev in
/-- The end of a call or program looks at how it ends only. -/
theorem Carried.at_boundary {run run' : Eval Value}
    (h : Carried translation (run state) (run' (translation.state state))) :
    Carried translation (atBoundary run state) (atBoundary run' (translation.state state)) := by
  let finish (outcome : Except Exit Value × EvalState) := atBoundary (fun _ => outcome) state
  refine h.map finish finish (fun result after hlimit => ?_) ?_
  · cases result with
    | ok value => exact .result _ hlimit
    | error exit =>
        cases exit with
        | jump jump =>
            cases jump with
            | returning value => exact .result _ hlimit
            | breaking | continuing => exact carries_raise _ _ after hlimit
        | thrown | fault | outOfFuel => exact .result _ hlimit
  · rintro _ after (_ | _) <;> rfl

omit hev in
/-- The body of a call is carried over in the state when the call begins. -/
theorem Carried.in_frame {frame : Scope} {run run' : Eval Value}
    (h : Carried translation (run (state.entering frame))
      (run' (translation.state (state.entering frame)))) :
    Carried translation (inFrame frame run state)
      (inFrame frame run' (translation.state state)) := by
  let leave (outcome : Except Exit Value × EvalState) := (outcome.1, state.returning outcome.2)
  let leave' (outcome : Except Exit Value × EvalState) :=
    (outcome.1, (translation.state state).returning outcome.2)
  exact h.map leave leave' (fun result _ hlimit => .result result hlimit) fun _ _ _ => rfl

/-- A call is carried over, unless it is refused under the old limit and that is not the new one. -/
theorem carried_call_function (id : FunctionId) (items : List Value)
    (receiver : Option InstanceId) (hlimit : state.world.maxDepth = translation.limit)
    (hrefuses : state.Refuses id items receiver → translation.limit = translation.newLimit) :
    Carried translation (callFunction ev id items receiver state)
      (callFunction other id items receiver (translation.state state)) := by
  rw [call_function_run, call_function_run]
  dsimp only
  rw [translation.open_parameters_state, translation.function_name_state,
    translation.frame_state, translation.function_body_state]
  split
  · exact carries_raise _ _ state hlimit
  · rename_i hcount
    have hle := translation.limit_le
    have hdepths : ((translation.state state).world.maxDepth ≤
        (translation.state state).world.depth) ↔ translation.newLimit ≤ state.world.depth := .rfl
    split
    · rename_i hdeep
      have hequal := hrefuses ⟨not_not.mp hcount, hdeep⟩
      rw [if_pos (hdepths.mpr (by omega))]
      exact carries_raise _ _ state hlimit
    · rename_i hshallow
      rw [if_neg (hdepths.not.mpr (by omega))]
      refine .at_boundary ?_
      exact .in_frame (carries_body hev _ _ hlimit)

/-- The call of a class is carried over, if the call of its constructor is. -/
theorem carried_instantiate (id : ClassId) (items : List Value)
    (hlimit : state.world.maxDepth = translation.limit)
    (hrefuses : ∀ method receiver inner, Invokes state (.classObject id) method receiver inner →
      inner.Refuses method items receiver → translation.limit = translation.newLimit) :
    Carried translation (instantiate ev id items state)
      (instantiate other id items (translation.state state)) := by
  have hnew (contents : Instance) : Carries translation
      (perform (Action.newInstance contents)) (perform (Action.newInstance contents)) :=
    carries_perform (Action.blind_new_instance contents)
  unfold instantiate
  refine .read_heap ?_
  simp only [translation.class_def_heap, translation.field_defaults_heap,
    translation.find_method_heap]
  cases hkind : (state.world.heap.classDef id).kind with
  | enum => exact carries_raise _ _ state hlimit
  | struct =>
      exact carries_check _ _ ((hnew _).bind fun _ => carries_pure _) state hlimit
  | regular =>
      refine (hnew _ state hlimit).bind fun object after hobject hlimit => ?_
      cases hmethod : state.world.heap.findMethod? id "__init__" with
      | none => exact carries_ite (carries_pure _) (carries_raise _ _) after hlimit
      | some method =>
          refine Carried.bind (carried_call_function hev method items (some object) hlimit ?_) ?_
          · exact hrefuses method (some object) after (.init hkind hmethod hobject)
          · exact fun _ last _ hlimit => .result _ hlimit

/-- The call of a value is carried over, if the call of the function behind it is. -/
theorem carried_call_value (callee : Value) (items : List Value)
    (hlimit : state.world.maxDepth = translation.limit)
    (hrefuses : ∀ id receiver inner, Invokes state callee id receiver inner →
      inner.Refuses id items receiver → translation.limit = translation.newLimit) :
    Carried translation (callValue ev callee items state)
      (callValue other callee items (translation.state state)) := by
  cases callee with
  | function id =>
      exact carried_call_function hev id items none hlimit (hrefuses _ _ _ (.function id))
  | boundMethod mark receiver id =>
      exact carried_call_function hev id items (some receiver) hlimit
        (hrefuses _ _ _ (.method mark receiver id))
  | classObject id => exact carried_instantiate hev id items hlimit hrefuses
  | builtinMethod mark object name =>
      exact carries_perform (Builtin.blind_call_method object name items) state hlimit
  | builtin function => exact carries_call_builtin function items state hlimit
  | _ => exact carries_heap (fun heap => carries_raise _ _) state hlimit

theorem carried_call (callee : Expr) (items : List Expr)
    (hlimit : state.world.maxDepth = translation.limit)
    (hrefuses : ∀ id arguments receiver inner,
      Calls ev (.call callee items) state id arguments receiver inner →
        inner.Refuses id arguments receiver → translation.limit = translation.newLimit) :
    Carried translation (call ev callee items state)
      (call other (translation.rewrite callee) (items.map translation.rewrite)
        (translation.state state)) := by
  by_cases hdirect : ∃ name id, callee = .name name ∧ state.world.functions.get? name = some id
  · obtain ⟨name, id, rfl, hname⟩ := hdirect
    have hother : (translation.state state).world.functions.get? name = some id := hname
    rw [translation.rewrite_eq_name_iff.mpr rfl, call_run_function hname,
      call_run_function hother]
    refine (carries_values hev items state hlimit).bind fun arguments after hvalues hlimit => ?_
    exact carried_call_function hev id arguments none hlimit
      (hrefuses _ _ _ _ (.named hname hvalues))
  · have hname (name : String) (hcallee : callee = .name name) :
        state.world.functions.get? name = none :=
      Option.eq_none_iff_forall_ne_some.mpr fun id hid => hdirect ⟨name, id, hcallee, hid⟩
    have hother (name : String) (hcallee : translation.rewrite callee = .name name) :
        (translation.state state).world.functions.get? name = none :=
      hname name (translation.rewrite_eq_name_iff.mp hcallee)
    rw [call_run_value hname, call_run_value hother]
    refine (hev callee state hlimit).bind fun target middle htarget hlimit => ?_
    refine (carries_values hev items middle hlimit).bind fun arguments after hvalues hlimit => ?_
    refine carried_call_value hev target arguments hlimit fun id receiver inner hinvokes => ?_
    exact hrefuses _ _ _ _ (.value hname (values_cons htarget hvalues) hinvokes)

theorem carried_method_call (object : Expr) (name : String) (items : List Expr)
    (hlimit : state.world.maxDepth = translation.limit)
    (hrefuses : ∀ id arguments receiver inner,
      Calls ev (.methodCall object name items) state id arguments receiver inner →
        inner.Refuses id arguments receiver → translation.limit = translation.newLimit) :
    Carried translation (methodCall ev object name items state)
      (methodCall other (translation.rewrite object) name (items.map translation.rewrite)
        (translation.state state)) := by
  refine (hev object state hlimit).bind fun owner first howner hlimit => ?_
  refine (carries_values hev items first hlimit).bind fun arguments middle harguments hlimit => ?_
  have hvalues := values_cons howner harguments
  have hattribute (hfields : owner.HasFields) : Carried translation
      ((getAttribute owner name >>= fun target => callValue ev target arguments) middle)
      ((getAttribute owner name >>= fun target => callValue other target arguments)
        (translation.state middle)) := by
    refine (carries_get_attribute owner name middle hlimit).bind
      fun target after htarget hlimit => ?_
    refine carried_call_value hev target arguments hlimit fun id receiver inner hinvokes => ?_
    exact hrefuses _ _ _ _ (.method hvalues hfields htarget hinvokes)
  cases owner with
  | object | classObject => exact hattribute trivial
  | _ => exact carries_perform (Builtin.blind_call_method _ name arguments) middle hlimit

theorem carried_new_object (className : String) (items : List Expr) (fuel fuel' : Nat)
    (hlimit : state.world.maxDepth = translation.limit)
    (hrefuses : ∀ id arguments receiver inner,
      Calls ev (.newObject className items) state id arguments receiver inner →
        inner.Refuses id arguments receiver → translation.limit = translation.newLimit) :
    Carried translation (step ev fuel (.newObject className items) state)
      (step other fuel' (.newObject className (items.map translation.rewrite))
        (translation.state state)) := by
  refine (carries_lookup_class className state hlimit).bind fun id middle hclass hlimit => ?_
  refine (carries_values hev items middle hlimit).bind fun arguments after hvalues hlimit => ?_
  refine carried_instantiate hev id arguments hlimit fun method receiver inner hinvokes => ?_
  exact hrefuses _ _ _ _ (.newObject hclass hvalues hinvokes)

/-! ## Branches and loops -/

theorem carries_binary (operator : BinaryOperator) (left right : Expr) :
    Carries translation (binary ev operator left right)
      (binary other operator (translation.rewrite left) (translation.rewrite right)) := by
  have htest (expr : Expr) : Carries translation
      (do return Value.bool (← condition ev expr))
      (do return Value.bool (← condition other (translation.rewrite expr))) :=
    (carries_condition hev expr).bind fun _ => carries_pure _
  cases operator with
  | and =>
      exact (carries_condition hev left).bind fun holds =>
        carries_ite (htest right) (carries_pure _)
  | or =>
      exact (carries_condition hev left).bind fun holds =>
        carries_ite (carries_pure _) (htest right)
  | _ =>
      exact (hev left).bind fun leftValue => (hev right).bind fun rightValue =>
        carries_perform (BinaryOperator.blind_apply _ leftValue rightValue)

theorem carries_if_then (test : Expr) (thenBody : List Expr) (elseBranch : Option Expr) :
    Carries translation (ifThen ev test thenBody elseBranch)
      (ifThen other (translation.rewrite test) (thenBody.map translation.rewrite)
        (elseBranch.map translation.rewrite)) := by
  refine (carries_condition hev test).bind fun holds => carries_ite (carries_body hev thenBody) ?_
  cases elseBranch with
  | some branch => exact hev branch
  | none => exact carries_pure _

theorem carries_match_arms (subject : Value) (arms : List (Expr × Expr)) :
    Carries translation (matchArms ev subject arms)
      (matchArms other subject
        (arms.map fun arm => (translation.rewrite arm.1, translation.rewrite arm.2))) := by
  have hrule (ev : Evaluator) {pattern : Expr} (result : Expr) (arms : List (Expr × Expr))
      (hpattern : pattern ≠ .name "_") : matchArms ev subject ((pattern, result) :: arms) =
        (do
          let value ← ev pattern
          if ← perform (Action.equal subject value) then ev result
          else matchArms ev subject arms) := by
    rw [matchArms]
    exact hpattern
  induction arms with
  | nil => exact carries_pure _
  | cons arm arms ih =>
      obtain ⟨pattern, result⟩ := arm
      rw [List.map_cons]
      by_cases hpattern : pattern = .name "_"
      · rw [hpattern, translation.rewrite_eq_name_iff.mpr rfl]
        exact hev result
      · rw [hrule ev result arms hpattern,
          hrule other _ _ (translation.rewrite_eq_name_iff.not.mpr hpattern)]
        exact (hev pattern).bind fun value =>
          (carries_perform (Action.blind_equal subject value)).bind fun same =>
            carries_ite (hev result) ih

theorem carries_loop_round (exprs : List Expr) :
    Carries translation (loopRound ev exprs) (loopRound other (exprs.map translation.rewrite)) := by
  intro state hlimit
  refine (carries_body hev exprs state hlimit).map roundOf roundOf
    (fun result after hlimit => ?_) ?_
  · cases result with
    | ok value => exact .result _ hlimit
    | error exit =>
        cases exit with
        | jump jump => cases jump <;> exact .result _ hlimit
        | thrown | fault | outOfFuel => exact .result _ hlimit
  · rintro _ after (_ | _) <;> rfl

/-- With more fuel a loop makes the same rounds, unless the fuel was short. -/
theorem carries_while_rounds (test : Expr) (exprs : List Expr) {fuel fuel' : Nat}
    (hfuel : fuel ≤ fuel') (hmore : fuel < fuel' → translation.moreFuel) (last : Value) :
    Carries translation (whileRounds ev test exprs fuel last)
      (whileRounds other (translation.rewrite test) (exprs.map translation.rewrite) fuel'
        last) := by
  induction fuel generalizing fuel' last with
  | zero =>
      cases fuel' with
      | zero => exact carries_throw _
      | succ fuel' => exact fun _ _ => .lifted (.fuel (hmore (Nat.succ_pos fuel'))) rfl
  | succ fuel ih =>
      obtain ⟨fuel', rfl⟩ := Nat.exists_eq_add_one.mpr (Nat.zero_lt_of_lt hfuel)
      have hless := Nat.le_of_succ_le_succ hfuel
      refine (carries_condition hev test).bind fun holds => carries_ite ?_ (carries_pure _)
      exact (carries_loop_round hev exprs).bind fun round =>
        carries_ite (carries_pure _) (ih hless (fun hlt => hmore (Nat.succ_lt_succ hlt)) _)

theorem carries_for_rounds (binder : String) (exprs : List Expr) (items : List Value)
    (last : Value) :
    Carries translation (forRounds ev binder exprs items last)
      (forRounds other binder (exprs.map translation.rewrite) items last) := by
  induction items generalizing last with
  | nil => exact carries_pure last
  | cons item items ih =>
      refine (carries_bind_name binder item).bind fun _ => ?_
      exact (carries_loop_round hev exprs).bind fun round => carries_ite (carries_pure _) (ih _)

theorem carries_source_items (iterable : Expr) :
    Carries translation (sourceItems ev iterable)
      (sourceItems other (translation.rewrite iterable)) :=
  (hev iterable).bind fun source => carries_perform (Builtin.blind_items_of source)

theorem carries_for_loop (binder : String) (iterable : Expr) (exprs : List Expr) :
    Carries translation (forLoop ev binder iterable exprs)
      (forLoop other binder (translation.rewrite iterable) (exprs.map translation.rewrite)) :=
  (hev iterable).bind fun source =>
    (carries_perform (Builtin.blind_items_of source)).bind fun items =>
      carries_for_rounds hev binder exprs items .null

theorem carries_comprehension_items (element : Expr) (binder : String) (items done : List Value) :
    Carries translation (comprehensionItems ev element binder items done)
      (comprehensionItems other (translation.rewrite element) binder items done) := by
  induction items generalizing done with
  | nil => exact carries_pure _
  | cons item items ih =>
      exact (carries_bind_name binder item).bind fun _ => (hev element).bind fun value => ih _

omit hev in
theorem Carries.aside {source source' : Eval α} {run run' : α → Eval β}
    (hsource : Carries translation source source')
    (hrun : ∀ result, Carries translation (run result) (run' result)) :
    Carries translation (aside source run) (aside source' run') := by
  intro state hlimit
  refine (hsource state hlimit).map (fun outcome => Eval.aside (fun _ => outcome) run state)
    (fun outcome => Eval.aside (fun _ => outcome) run' (translation.state state))
    (fun result middle hmiddle => ?_) fun _ _ _ => rfl
  cases result with
  | error exit => exact .result _ hmiddle
  | ok result =>
      let leave (outcome : Except Exit β × EvalState) :=
        (outcome.1, { outcome.2 with scope := middle.scope })
      exact (hrun result { middle with scope := state.scope } hmiddle).map leave leave
        (fun result _ hlimit => .result result hlimit) fun _ _ _ => rfl

theorem carries_comprehension (element : Expr) (binder : String) (iterable : Expr) :
    Carries translation (comprehension ev element binder iterable)
      (comprehension other (translation.rewrite element) binder
        (translation.rewrite iterable)) := by
  rw [comprehension_eq, comprehension_eq]
  refine Carries.bind (.aside (carries_source_items hev iterable) fun items => ?_) fun found => ?_
  · exact carries_comprehension_items hev element binder items []
  · exact carries_perform (Action.blind_new_list found.toArray)

/-! ## Assignments, errors and jumps -/

theorem carries_assign_index (collection index value : Expr) :
    Carries translation (assignIndex ev collection index value)
      (assignIndex other (translation.rewrite collection) (translation.rewrite index)
        (translation.rewrite value)) :=
  (hev collection).bind fun collection => (hev index).bind fun index =>
    (hev value).bind fun value =>
      (carries_perform (Builtin.blind_set_item collection index value)).bind fun _ =>
        carries_pure _

theorem carries_assign_attribute (object : Expr) (name : String) (value : Expr) :
    Carries translation (assignAttribute ev object name value)
      (assignAttribute other (translation.rewrite object) name (translation.rewrite value)) :=
  (hev object).bind fun object => (hev value).bind fun value =>
    (carries_set_attribute object name value).bind fun _ => carries_pure _

theorem carries_destructure (names : List String) (value : Expr) :
    Carries translation (destructure ev names value)
      (destructure other names (translation.rewrite value)) :=
  (hev value).bind fun value => (carries_perform (Builtin.blind_items_of value)).bind fun _ =>
    carries_check _ _ (carries_check _ _ ((carries_bind_all _).bind fun _ => carries_pure _))

theorem carries_define_class (name : String) (bases : List String) (members : List Expr) :
    Carries translation (defineClass ev name bases members)
      (defineClass other name bases (members.map translation.rewrite)) := by
  have hrest (base : Option (ClassId × String)) :=
    (carries_class_members hev members
      ⟨name, .regular, base.map (·.1), .empty, .empty, []⟩).bind fun definition =>
        (carries_add_class definition).bind fun _ =>
          (carries_record (.classDefined name (base.map (·.2)))).bind fun _ =>
            (carries_pure Value.null : Carries translation (pure Value.null) (pure Value.null))
  unfold defineClass
  cases bases with
  | nil => exact hrest none
  | cons baseName bases =>
      refine (carries_lookup_class baseName).bind fun id => carries_heap fun heap => ?_
      exact carries_check _ _ (hrest (some (id, (heap.classDef id).name)))

theorem carries_throw_value (value : Expr) (cause : Option Expr) :
    Carries translation (throwValue ev value cause)
      (throwValue other (translation.rewrite value) (cause.map translation.rewrite)) := by
  refine (hev value).bind fun thrown => ?_
  refine (carries_perform (Builtin.blind_to_error thrown)).bind fun error => ?_
  cases cause with
  | none => exact carries_throw _
  | some cause =>
      exact (hev cause).bind fun causeValue =>
        (carries_perform (Builtin.blind_to_cause causeValue)).bind fun linked =>
          (carries_perform (Action.blind_set_error error _)).bind fun _ => carries_throw _

theorem carries_return_value (value : Option Expr) :
    Carries translation (returnValue ev value)
      (returnValue other (value.map translation.rewrite)) := by
  cases value with
  | none => exact carries_throw _
  | some expr => exact (hev expr).bind fun result => carries_throw _

omit hev in
theorem carries_throw_linked (caught inner : ErrorId) :
    Carries translation (throwLinked caught inner) (throwLinked caught inner) := by
  refine carries_heap fun heap => ?_
  refine carries_ite ?_ (carries_throw _)
  exact (carries_perform (Action.blind_set_error inner _)).bind fun _ => carries_throw _

theorem carries_run_handler (caught : ErrorId) (binder : Option String) (handler : List Expr) :
    Carries translation (runHandler ev caught binder handler)
      (runHandler other caught binder (handler.map translation.rewrite)) := by
  refine carries_heap fun heap => (carries_record _).bind fun _ => ?_
  cases binder with
  | none => exact carries_body hev handler
  | some name => exact (carries_bind_name name _).bind fun _ => carries_body hev handler

theorem carries_handle (caught : ErrorId) (binder : Option String) (handler : List Expr) :
    Carries translation (handle ev caught binder handler)
      (handle other caught binder (handler.map translation.rewrite)) := by
  intro state hlimit
  refine (carries_run_handler hev caught binder handler state hlimit).map (linkThrown caught)
    (linkThrown caught) (fun result after hlimit => ?_) ?_
  · cases result with
    | ok value => exact .result _ hlimit
    | error exit =>
        cases exit with
        | thrown inner => exact carries_throw_linked caught inner after hlimit
        | jump | fault | outOfFuel => exact .result _ hlimit
  · rintro _ after (_ | _) <;> rfl

omit hev in
/-- Statements that end with an exit end with that of one of them. -/
theorem exists_exit_of_statements {exprs : List Expr} {last : Value} {state : EvalState}
    {exit : Exit} (h : (statements ev exprs last state).1 = .error exit) :
    ∃ part inner, (ev part inner).1 = .error exit := by
  induction exprs generalizing last state with
  | nil => cases h
  | cons expr exprs ih =>
      rw [statements, run_bind] at h
      rcases hrun : ev expr state with ⟨found | value, after⟩
      · rw [hrun] at h
        cases h
        exact ⟨expr, state, congrArg Prod.fst hrun⟩
      · rw [hrun] at h
        exact ih h

/-- A handler makes an error of a limit that its body has met, so the limit must not be raised if
there is such a body. -/
theorem carries_try_catch (exprs : List Expr) (binder : Option String) (handler : List Expr)
    (hfaults : ∀ part inner, (ev part inner).1 = .error (.fault .recursion) →
      translation.limit = translation.newLimit) :
    Carries translation (tryCatch ev exprs binder handler)
      (tryCatch other (exprs.map translation.rewrite) binder
        (handler.map translation.rewrite)) := by
  have hhandle (error : ErrorId) := carries_handle hev error binder handler
  have hnew : Carries translation
      (perform (Action.newError .recursionError [recursionMessage]))
      (perform (Action.newError .recursionError [recursionMessage])) :=
    carries_perform (Action.blind_new_error _ _)
  have hrecover := hnew.bind hhandle
  intro state hlimit
  have hbody := carries_body hev exprs state hlimit
  unfold tryCatch
  cases hbody with
  | same heq hafter =>
      rw [heq]
      generalize body ev exprs state = outcome at hafter ⊢
      obtain ⟨result, after⟩ := outcome
      cases result with
      | ok value => exact .result _ hafter
      | error exit =>
          cases exit with
          | thrown error => exact hhandle error after hafter
          | fault fault =>
              cases fault with
              | recursion => exact hrecover after hafter
              | _ => exact .result _ hafter
          | jump | outOfFuel => exact .result _ hafter
  | lifted hlifts heq =>
      cases hlifts with
      | depth hlt =>
          obtain ⟨part, inner, hmet⟩ := exists_exit_of_statements heq
          exact absurd (hfaults part inner hmet) (Nat.ne_of_lt hlt)
      | fuel hmore =>
          generalize body ev exprs state = outcome at heq ⊢
          obtain ⟨result, after⟩ := outcome
          cases heq
          exact .lifted (.fuel hmore) rfl

/-! ## All rules -/

theorem carries_let (name : String) (value : Expr) :
    Carries translation
      (do
        let value ← ev value
        bindName name value
        return Value.null)
      (do
        let value ← other (translation.rewrite value)
        bindName name value
        return Value.null) :=
  (hev value).bind fun value => (carries_bind_name name value).bind fun _ => carries_pure _

/-- The rule of every construct is carried over, if no call that it makes is refused under the old
limit and no part of it is nested too deeply for that limit, or else that is the new one. -/
theorem carried_step {fuel fuel' : Nat} (hfuel : fuel ≤ fuel')
    (hmore : fuel < fuel' → translation.moreFuel) (expr : Expr)
    (hlimit : state.world.maxDepth = translation.limit)
    (hfaults : ∀ part inner, (ev part inner).1 = .error (.fault .recursion) →
      translation.limit = translation.newLimit)
    (hrefuses : ∀ id arguments receiver inner,
      Calls ev expr state id arguments receiver inner →
        inner.Refuses id arguments receiver → translation.limit = translation.newLimit) :
    Carried translation (step ev fuel expr state)
      (step other fuel' (translation.rewrite expr) (translation.state state)) := by
  by_cases htyped : ∃ bound typeName value, expr = .typedLet bound typeName value
  · obtain ⟨bound, typeName, value, rfl⟩ := htyped
    obtain hlet | hlet := translation.typed bound typeName value
    · rw [hlet]
      exact carries_let hev bound value state hlimit
    · rw [hlet]
      exact carries_let hev bound value state hlimit
  simp only [not_exists] at htyped
  rw [translation.parts expr htyped]
  cases expr with
  | int | string | bytes | bool | null => exact .result _ hlimit
  | float x => exact carries_perform (Action.blind_new_float x) state hlimit
  | imaginary x => exact carries_perform (Action.blind_new_complex 0.0 x) state hlimit
  | name name => exact carries_lookup name state hlimit
  | binary operator left right => exact carries_binary hev operator left right state hlimit
  | unary operator operand =>
      have hrule := (hev operand).bind fun value => carries_perform (operator.blind_apply value)
      exact hrule state hlimit
  | letBind name value => exact carries_let hev name value state hlimit
  | typedLet bound typeName value => exact (htyped _ _ _ rfl).elim
  | constBind name value =>
      have hrule := (hev value).bind fun value =>
        (carries_bind_constant name value).bind fun _ => carries_pure Value.null
      exact hrule state hlimit
  | assign name value =>
      have hrule := (hev value).bind fun value =>
        (carries_bind_name name value).bind fun _ => carries_pure value
      exact hrule state hlimit
  | assignIndex collection index value =>
      exact carries_assign_index hev collection index value state hlimit
  | assignAttribute object name value =>
      exact carries_assign_attribute hev object name value state hlimit
  | destructure names value => exact carries_destructure hev names value state hlimit
  | block exprs => exact carries_body hev exprs state hlimit
  | ifThen test thenBody elseBranch =>
      exact carries_if_then hev test thenBody elseBranch state hlimit
  | whileLoop test exprs => exact carries_while_rounds hev test exprs hfuel hmore .null state hlimit
  | forLoop binder iterable exprs => exact carries_for_loop hev binder iterable exprs state hlimit
  | matchOn subject arms =>
      have hrule := (hev subject).bind fun value => carries_match_arms hev value arms
      exact hrule state hlimit
  | tryCatch exprs binder handler =>
      exact carries_try_catch hev exprs binder handler hfaults state hlimit
  | «throwError» value cause => exact carries_throw_value hev value cause state hlimit
  | returnValue value => exact carries_return_value hev value state hlimit
  | breakLoop | continueLoop => exact .result _ hlimit
  | defineFunction name parameters exprs =>
      exact carries_define_function name parameters exprs state hlimit
  | defineClass name bases members => exact carries_define_class hev name bases members state hlimit
  | defineStruct name fields => exact carries_define_struct name fields state hlimit
  | defineEnum name variants => exact carries_define_enum name variants state hlimit
  | call callee items => exact carried_call hev callee items hlimit hrefuses
  | index collection index =>
      have hrule := (hev collection).bind fun collection => (hev index).bind fun index =>
        carries_perform (Builtin.blind_get_item collection index)
      exact hrule state hlimit
  | getAttribute object name | ownField object name =>
      have hrule := (hev object).bind fun object => carries_get_attribute object name
      exact hrule state hlimit
  | methodCall object name items => exact carried_method_call hev object name items hlimit hrefuses
  | newObject className items =>
      exact carried_new_object hev className items fuel fuel' hlimit hrefuses
  | newRecord className fields => exact carries_new_record hev className fields state hlimit
  | enumVariant enumName variant => exact carries_enum_variant enumName variant state hlimit
  | list items =>
      have hrule := (carries_values hev items).bind fun values =>
        carries_perform (Action.blind_new_list values.toArray)
      exact hrule state hlimit
  | tuple items =>
      have hrule := (carries_values hev items).bind fun values =>
        carries_perform (Action.blind_new_tuple values)
      exact hrule state hlimit
  | set items =>
      have hrule := (carries_set_items hev items []).bind fun keys =>
        carries_perform (Action.blind_new_set keys)
      exact hrule state hlimit
  | dict pairs =>
      have hrule := (carries_dict_pairs hev pairs Dict.empty).bind fun dict =>
        carries_perform (Action.blind_new_dict dict)
      exact hrule state hlimit
  | comprehension element binder iterable =>
      exact carries_comprehension hev element binder iterable state hlimit
  | importModule target => exact carries_import_module target state hlimit

end Rules

end Eval

/-! ## Whole programs -/

namespace Interpreter

open Eval

variable {translation : Translation} {state : EvalState}

/-- Faults are made errors in the same way, if they are the same faults. -/
theorem carried_raise_faults {run run' : Eval Value}
    (h : Carried translation (run state) (run' (translation.state state)))
    (hends : ∀ exit, translation.Lifts exit → (run state).1 ≠ .error exit) :
    raiseFaults run' (translation.state state) =
        ((raiseFaults run state).1, translation.state (raiseFaults run state).2) ∧
      (raiseFaults run state).2.world.maxDepth = translation.limit := by
  unfold raiseFaults
  cases h with
  | lifted hlifts heq => exact (hends _ hlifts heq).elim
  | same heq hafter =>
      dsimp only
      rw [heq]
      generalize run state = outcome at hafter ⊢
      obtain ⟨result, after⟩ := outcome
      cases result with
      | ok value => exact ⟨rfl, hafter⟩
      | error exit =>
          cases exit with
          | fault fault => cases fault <;> exact ⟨rfl, hafter⟩
          | thrown | jump | outOfFuel => exact ⟨rfl, hafter⟩

/-- The end of a program does not meet a limit that the program has not met. -/
theorem lifts_of_boundary {run : Eval Value} {exit : Exit} (hlifts : translation.Lifts exit)
    (h : (atBoundary run state).1 = .error exit) : (run state).1 = .error exit := by
  unfold atBoundary at h
  rcases hrun : run state with ⟨found | value, after⟩
  · rw [hrun] at h
    cases found with
    | jump jump =>
        -- A jump becomes a result or an error, but no limit is met.
        cases jump with
        | returning value => cases h
        | breaking | continuing =>
            cases h
            cases hlifts
    | thrown | fault | outOfFuel => exact h
  · rw [hrun] at h
    cases h

/-- A program is carried over, if its statements are and do not end at a limit that is raised. -/
theorem run_program_carried {interpreter : Interpreter} {fuel fuel' : Nat} {program : Program}
    (h : Carried translation (evaluate (fuel + 1) (.block program) interpreter.started)
      (evaluate (fuel' + 1) (.block (program.map translation.rewrite))
        (translation.state interpreter.started)))
    (hends : ∀ exit, translation.Lifts exit →
      (evaluate (fuel + 1) (.block program) interpreter.started).1 ≠ .error exit) :
    (translation.interpreter interpreter).runProgram fuel' (program.map translation.rewrite) =
        ((interpreter.runProgram fuel program).1,
          translation.interpreter (interpreter.runProgram fuel program).2) ∧
      (interpreter.runProgram fuel program).2.world.maxDepth = translation.limit := by
  obtain ⟨heq, hlimit⟩ := carried_raise_faults (.at_boundary h) fun exit hlifts hend =>
    hends exit hlifts (lifts_of_boundary hlifts hend)
  have hstarted : (translation.interpreter interpreter).started =
      translation.state interpreter.started := rfl
  rw [run_program_eq, run_program_eq, hstarted]
  exact ⟨congrArg report heq, hlimit⟩

end Interpreter

end Script
