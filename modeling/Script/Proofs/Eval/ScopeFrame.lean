import Script.Proofs.Eval.Rules
import Script.Proofs.Expr.Parts

/-!
# What an evaluation leaves alone in its scope

`Expr.Binds` says which names an expression binds in the scope it stands in. Bodies of functions
and methods do not count, and neither do the element and the binder of a comprehension, since they
have scopes of their own. An evaluation that spares a name leaves its binding alone, and leaves it
as constant or variable as it was, however it ends. Every rule of the evaluator spares what the
construct does not bind, given that the evaluation of the parts does; `scope_frame` follows by
induction on the fuel. Calls spare all names, whatever they evaluate.
-/

namespace Script

/-- The names that a construct itself binds in the scope it stands in. -/
def Expr.ownNames : Expr → List String
  | .letBind bound _ | .typedLet bound _ _ | .constBind bound _ | .assign bound _ => [bound]
  | .destructure bound _ => bound
  | .forLoop binder _ _ => [binder]
  | .tryCatch _ binder _ => binder.toList
  | .importModule target => [Builtin.moduleName target]
  | _ => []

/-- The expression binds a name in the scope it stands in. -/
inductive Expr.Binds (name : String) : Expr → Prop where
  | own {expr : Expr} : name ∈ expr.ownNames → Binds name expr
  | part {expr part : Expr} : part ∈ expr.sharedParts → Binds name part → Binds name expr

/-- Nothing else is bound. -/
theorem Expr.not_binds {name : String} {expr : Expr} (hown : name ∉ expr.ownNames)
    (hparts : ∀ part ∈ expr.sharedParts, ¬part.Binds name) : ¬expr.Binds name := by
  rintro (hmem | ⟨hpart, hbinds⟩)
  · exact hown hmem
  · exact hparts _ hpart hbinds

/-- A name has the same binding in both scopes, and is constant in both or in neither. -/
structure Scope.SameAt (name : String) (scope after : Scope) : Prop where
  value : after.get? name = scope.get? name
  constant : after.isConstant name = scope.isConstant name

namespace Scope.SameAt

variable {name other : String}

theorem refl (scope : Scope) : SameAt name scope scope :=
  ⟨rfl, rfl⟩

theorem trans {first second third : Scope} (h : SameAt name first second)
    (hnext : SameAt name second third) : SameAt name first third :=
  ⟨hnext.value.trans h.value, hnext.constant.trans h.constant⟩

/-- Binding another name. -/
theorem bind (h : name ≠ other) (scope : Scope) (value : Value) :
    SameAt name scope (scope.bind other value) :=
  ⟨by rw [get?_bind, if_neg h], isConstant_bind scope other name value⟩

/-- Binding another name for good. -/
theorem bind_constant (h : name ≠ other) (scope : Scope) (value : Value) :
    SameAt name scope (scope.bindConstant other value) := by
  refine ⟨?_, ?_⟩
  · show (scope.bindings.insert other value).get? name = scope.bindings.get? name
    rw [Table.get?_insert, if_neg h]
  · unfold bindConstant
    by_cases hconstant : scope.isConstant other
    · rw [if_pos hconstant]
      rfl
    · rw [if_neg hconstant]
      simp [isConstant, h]

end Scope.SameAt

namespace Eval

open EvalState

variable {α β : Type} {name : String}

/-- However the evaluation ends, the name is in the scope what it was. -/
def Spares (name : String) (part : Eval α) : Prop :=
  ∀ state : EvalState, state.scope.SameAt name (part state).2.scope

/-! ## The parts of a rule -/

/-- An evaluation that ends in the scope it began in spares all names. -/
theorem Spares.of_scope_eq {part : Eval α} (h : ∀ state, (part state).2.scope = state.scope) :
    Spares name part := by
  intro state
  rw [h state]
  exact .refl state.scope

theorem spares_pure (result : α) : Spares name (pure result) :=
  .of_scope_eq fun _ => rfl

theorem spares_throw (exit : Exit) : Spares name (throw exit : Eval α) :=
  .of_scope_eq fun _ => rfl

theorem spares_get : Spares name (get : Eval EvalState) :=
  .of_scope_eq fun _ => rfl

theorem spares_heap : Spares name heap :=
  .of_scope_eq fun _ => rfl

theorem spares_scope : Spares name scope :=
  .of_scope_eq fun _ => rfl

theorem spares_modify_world (change : World → World) : Spares name (modifyWorld change) :=
  .of_scope_eq fun _ => rfl

theorem spares_record (event : LogEvent) : Spares name (record event) :=
  spares_modify_world _

theorem Spares.bind {part : Eval α} {next : α → Eval β} (hpart : Spares name part)
    (hnext : ∀ result, Spares name (next result)) : Spares name (part >>= next) := by
  intro state
  have hfirst := hpart state
  rw [run_bind]
  rcases hrun : part state with ⟨exit | result, after⟩
  · rw [hrun] at hfirst
    exact hfirst
  · rw [hrun] at hfirst
    exact hfirst.trans (hnext result after)

theorem spares_perform (action : Action α) : Spares name (perform action) := by
  refine .of_scope_eq fun state => ?_
  unfold perform
  split
  · rfl
  · rfl
  · rfl

theorem spares_raise (kind : ErrorKind) (message : String) :
    Spares name (raise kind message : Eval α) :=
  spares_perform _

/-! ## Names and bindings -/

theorem spares_check_writable (other : String) : Spares name (checkWritable other) := by
  have hconstant : Spares name (do
      if (← scope).isConstant other then
        raise .typeError s!"cannot reassign constant '{other}'" : Eval Unit) := by
    refine spares_scope.bind fun scope => ?_
    split
    · exact spares_raise _ _
    · exact spares_pure ()
  unfold checkWritable
  by_cases hfrozen : (frozenValue? other).isSome
  · simp only [hfrozen, if_true]
    exact (spares_raise _ _).bind fun _ => hconstant
  · simp only [hfrozen]
    exact hconstant

/-- Binding a name spares every other name. -/
theorem spares_bind_name {other : String} (h : name ≠ other) (value : Value) :
    Spares name (bindName other value) := by
  refine (spares_check_writable other).bind fun _ => ?_
  exact fun state => .bind h state.scope value

theorem spares_bind_constant {other : String} (h : name ≠ other) (value : Value) :
    Spares name (bindConstant other value) := by
  refine (spares_check_writable other).bind fun _ => ?_
  exact fun state => .bind_constant h state.scope value

theorem spares_bind_all {pairs : List (String × Value)} (h : name ∉ pairs.map (·.1)) :
    Spares name (bindAll pairs) := by
  induction pairs with
  | nil => exact spares_pure ()
  | cons pair pairs ih =>
      rw [List.map_cons, List.mem_cons, not_or] at h
      exact (spares_bind_name h.1 pair.2).bind fun _ => ih h.2

theorem spares_lookup (other : String) : Spares name (lookup other) := by
  refine spares_get.bind fun state => ?_
  split
  · exact spares_pure _
  · exact spares_raise _ _

theorem spares_lookup_class (other : String) : Spares name (lookupClass other) := by
  refine spares_get.bind fun state => ?_
  dsimp only
  split
  · exact spares_raise _ _
  · exact spares_raise _ _
  · exact spares_pure _
  · exact spares_raise _ _

/-! ## Objects and definitions -/

theorem spares_instance_attribute (id : InstanceId) (field : String) :
    Spares name (instanceAttribute id field) := by
  refine spares_heap.bind fun heap => ?_
  dsimp only
  split
  · exact spares_pure _
  · split
    · exact spares_perform _
    · exact spares_raise _ _

theorem spares_class_attribute (id : ClassId) (field : String) :
    Spares name (classAttribute id field) := by
  refine spares_heap.bind fun heap => ?_
  dsimp only
  split
  · split
    · exact spares_pure _
    · exact spares_raise _ _
  · split
    · exact spares_pure _
    · exact spares_raise _ _

theorem spares_get_attribute (object : Value) (field : String) :
    Spares name (getAttribute object field) := by
  unfold getAttribute
  split
  · exact spares_instance_attribute _ field
  · exact spares_class_attribute _ field
  · exact spares_perform _

theorem spares_set_attribute (object : Value) (field : String) (value : Value) :
    Spares name (setAttribute object field value) := by
  refine spares_heap.bind fun heap => ?_
  split
  · dsimp only
    split
    · exact (spares_raise _ _).bind fun _ => spares_perform _
    · exact spares_perform _
  · exact spares_raise _ _

theorem spares_make_function (function : String) (parameters : List String)
    (exprs : List Expr) : Spares name (makeFunction function parameters exprs) := by
  unfold makeFunction
  split
  · exact spares_raise _ _
  · exact spares_perform _

theorem spares_add_class (definition : ClassDef) : Spares name (addClass definition) :=
  (spares_perform _).bind fun _ => spares_modify_world _

theorem spares_define_function (function : String) (parameters : List String)
    (exprs : List Expr) : Spares name (defineFunction function parameters exprs) := by
  refine (spares_make_function function parameters exprs).bind fun id => ?_
  exact (spares_modify_world _).bind fun _ => spares_pure _

theorem spares_define_struct (struct : String) (fields : List String) :
    Spares name (defineStruct struct fields) :=
  (spares_add_class _).bind fun _ => (spares_record _).bind fun _ => spares_pure _

theorem spares_define_enum (enum : String) (variants : List String) :
    Spares name (defineEnum enum variants) :=
  (spares_add_class _).bind fun _ => (spares_record _).bind fun _ => spares_pure _

theorem spares_enum_variant (enum variant : String) : Spares name (enumVariant enum variant) := by
  refine (spares_lookup_class enum).bind fun id => ?_
  refine spares_heap.bind fun heap => ?_
  dsimp only
  split
  · exact (spares_raise _ _).bind fun _ => spares_class_attribute id variant
  · exact spares_class_attribute id variant

theorem spares_import_module {target : String} (h : name ≠ Builtin.moduleName target) :
    Spares name (importModule target) := by
  refine (spares_record _).bind fun _ => ?_
  refine (spares_perform _).bind fun dict => ?_
  exact (spares_bind_name h dict).bind fun _ => spares_pure _

/-! ## Input and output -/

theorem spares_on_console (use : Console → Except StreamFault α × Console) :
    Spares name (onConsole use) := by
  refine spares_get.bind fun state => (spares_modify_world _).bind fun _ => ?_
  split
  · exact spares_pure _
  · exact spares_raise _ _
  · exact .of_scope_eq fun _ => rfl

theorem spares_write (text : String) : Spares name (write text) :=
  spares_on_console _

theorem spares_print (items : List Value) : Spares name (print items) :=
  (spares_perform _).bind fun _ => (spares_write _).bind fun _ => spares_pure _

theorem spares_read_line : Spares name readLine :=
  spares_on_console _

theorem spares_input (items : List Value) : Spares name (input items) := by
  have hread : Spares name (do
      let line ← readLine
      if line.isEmpty then raise .eofError "EOF when reading a line"
      return .str (String.ofList (Text.trimRightBy (fun c => c = '\r' || c = '\n') line)) :
      Eval Value) := by
    refine spares_read_line.bind fun line => ?_
    split
    · exact (spares_raise _ _).bind fun _ => spares_pure _
    · exact spares_pure _
  refine (spares_perform _).bind fun _ => ?_
  split
  · refine (spares_perform _).bind fun text => ?_
    exact (spares_write text).bind fun _ => hread
  · exact hread

theorem spares_call_builtin (function : BuiltinFunction) (items : List Value) :
    Spares name (callBuiltin function items) := by
  unfold callBuiltin
  split
  · exact spares_print items
  · exact spares_input items
  · exact spares_perform _

/-! ## Calls

A call runs in a scope of its own, so nothing has to be known about what it evaluates. -/

/-- The end of a call or program binds nothing. -/
theorem at_boundary_scope (run : Eval Value) (state : EvalState) :
    (atBoundary run state).2.scope = (run state).2.scope := by
  unfold atBoundary
  split
  · rename_i hrun
    rw [hrun]
  · rename_i hrun
    rw [hrun]
    rfl
  · rfl

theorem spares_call_function (ev : Evaluator) (id : FunctionId) (items : List Value)
    (receiver : Option InstanceId) : Spares name (callFunction ev id items receiver) := by
  intro state
  rw [call_function_run]
  dsimp only
  split
  · exact spares_raise _ _ state
  · split
    · exact spares_raise _ _ state
    · rw [at_boundary_scope, in_frame_run]
      exact .refl state.scope

theorem spares_instantiate (ev : Evaluator) (id : ClassId) (items : List Value) :
    Spares name (instantiate ev id items) := by
  refine spares_heap.bind fun heap => ?_
  dsimp only
  split
  · exact spares_raise _ _
  · have hnew (fields : Table Value) :
        Spares name (return .object (← perform (Action.newInstance ⟨id, fields⟩)) : Eval Value) :=
      (spares_perform _).bind fun _ => spares_pure _
    split
    · exact (spares_raise _ _).bind fun _ => hnew _
    · exact hnew _
  · refine (spares_perform _).bind fun object => ?_
    split
    · exact (spares_call_function ev _ items _).bind fun _ => spares_pure _
    · split
      · exact spares_pure _
      · exact spares_raise _ _

theorem spares_call_value (ev : Evaluator) (callee : Value) (items : List Value) :
    Spares name (callValue ev callee items) := by
  unfold callValue
  split
  · exact spares_call_function ev _ items none
  · exact spares_call_function ev _ items _
  · exact spares_perform _
  · exact spares_call_builtin _ items
  · exact spares_instantiate ev _ items
  · exact spares_heap.bind fun heap => spares_raise _ _

/-! ## Constructs

The evaluation of the parts that share the scope is assumed to spare the name. -/

variable {ev : Evaluator}

theorem spares_statements {exprs : List Expr} (h : ∀ expr ∈ exprs, Spares name (ev expr))
    (last : Value) : Spares name (statements ev exprs last) := by
  induction exprs generalizing last with
  | nil => exact spares_pure last
  | cons expr exprs ih =>
      refine (h expr List.mem_cons_self).bind fun value => ?_
      exact ih (fun other hother => h other (List.mem_cons_of_mem expr hother)) value

theorem spares_body {exprs : List Expr} (h : ∀ expr ∈ exprs, Spares name (ev expr)) :
    Spares name (body ev exprs) :=
  spares_statements h .null

theorem spares_values {exprs : List Expr} (h : ∀ expr ∈ exprs, Spares name (ev expr)) :
    Spares name (values ev exprs) := by
  induction exprs with
  | nil => exact spares_pure []
  | cons expr exprs ih =>
      refine (h expr List.mem_cons_self).bind fun value => ?_
      refine Spares.bind ?_ fun values => spares_pure _
      exact ih fun other hother => h other (List.mem_cons_of_mem expr hother)

theorem spares_condition {expr : Expr} (h : Spares name (ev expr)) :
    Spares name (condition ev expr) :=
  h.bind fun _ => spares_perform _

theorem spares_call {callee : Expr} {items : List Expr} (hcallee : Spares name (ev callee))
    (hitems : ∀ expr ∈ items, Spares name (ev expr)) : Spares name (call ev callee items) := by
  refine spares_get.bind fun state => ?_
  dsimp only
  split
  · refine (spares_values hitems).bind fun arguments => ?_
    exact spares_call_function ev _ arguments none
  · refine hcallee.bind fun target => ?_
    exact (spares_values hitems).bind fun arguments => spares_call_value ev target arguments

theorem spares_method_call {object : Expr} {items : List Expr} (method : String)
    (hobject : Spares name (ev object)) (hitems : ∀ expr ∈ items, Spares name (ev expr)) :
    Spares name (methodCall ev object method items) := by
  refine hobject.bind fun receiver => ?_
  refine (spares_values hitems).bind fun arguments => ?_
  have hcall : Spares name (do
      let target ← getAttribute receiver method
      callValue ev target arguments) :=
    (spares_get_attribute receiver method).bind fun target => spares_call_value ev target arguments
  split
  · exact hcall
  · exact hcall
  · exact spares_perform _

theorem spares_binary (operator : BinaryOperator) {left right : Expr}
    (hleft : Spares name (ev left)) (hright : Spares name (ev right)) :
    Spares name (binary ev operator left right) := by
  unfold binary
  split
  · refine (spares_condition hleft).bind fun test => ?_
    split
    · exact (spares_condition hright).bind fun _ => spares_pure _
    · exact spares_pure _
  · refine (spares_condition hleft).bind fun test => ?_
    split
    · exact spares_pure _
    · exact (spares_condition hright).bind fun _ => spares_pure _
  · exact hleft.bind fun _ => hright.bind fun _ => spares_perform _

theorem spares_if_then {test : Expr} {thenBody : List Expr} {elseBranch : Option Expr}
    (htest : Spares name (ev test)) (hthen : ∀ expr ∈ thenBody, Spares name (ev expr))
    (helse : ∀ expr ∈ elseBranch, Spares name (ev expr)) :
    Spares name (ifThen ev test thenBody elseBranch) := by
  refine (spares_condition htest).bind fun holds => ?_
  split
  · exact spares_body hthen
  · cases elseBranch with
    | none => exact spares_pure _
    | some branch => exact helse branch rfl

/-- However a round of a loop ends, its statements are all that it runs. -/
theorem spares_loop_round {exprs : List Expr} (h : ∀ expr ∈ exprs, Spares name (ev expr)) :
    Spares name (loopRound ev exprs) := by
  intro state
  have hbody := spares_body h state
  unfold loopRound
  rcases hrun : body ev exprs state with ⟨result, after⟩
  rw [hrun] at hbody
  split <;> rename_i hend <;> cases hend <;> exact hbody

theorem spares_while_rounds {test : Expr} {exprs : List Expr} (htest : Spares name (ev test))
    (h : ∀ expr ∈ exprs, Spares name (ev expr)) (fuel : Nat) (last : Value) :
    Spares name (whileRounds ev test exprs fuel last) := by
  induction fuel generalizing last with
  | zero => exact spares_throw _
  | succ fuel ih =>
      refine (spares_condition htest).bind fun holds => ?_
      split
      · refine (spares_loop_round h).bind fun ⟨value, ends⟩ => ?_
        dsimp only
        split
        · exact spares_pure _
        · exact ih value
      · exact spares_pure _

theorem spares_for_rounds {binder : String} {exprs : List Expr} (hbinder : name ≠ binder)
    (h : ∀ expr ∈ exprs, Spares name (ev expr)) (items : List Value) (last : Value) :
    Spares name (forRounds ev binder exprs items last) := by
  induction items generalizing last with
  | nil => exact spares_pure last
  | cons item items ih =>
      refine (spares_bind_name hbinder item).bind fun _ => ?_
      refine (spares_loop_round h).bind fun ⟨value, ends⟩ => ?_
      dsimp only
      split
      · exact spares_pure _
      · exact ih value

theorem spares_match_arms (subject : Value) {arms : List (Expr × Expr)}
    (h : ∀ arm ∈ arms, Spares name (ev arm.1) ∧ Spares name (ev arm.2)) :
    Spares name (matchArms ev subject arms) := by
  induction arms using matchArms.induct with
  | case1 => exact spares_pure _
  | case2 result rest => exact (h _ List.mem_cons_self).2
  | case3 pattern result rest hname ih =>
      obtain ⟨hpattern, hresult⟩ := h _ List.mem_cons_self
      rw [matchArms.eq_3 _ _ _ _ _ hname]
      refine hpattern.bind fun value => ?_
      refine (spares_perform _).bind fun same => ?_
      split
      · exact hresult
      · exact ih fun arm harm => h arm (List.mem_cons_of_mem _ harm)

theorem spares_handle (caught : ErrorId) {binder : Option String} {handler : List Expr}
    (hbinder : ∀ bound ∈ binder, name ≠ bound) (h : ∀ expr ∈ handler, Spares name (ev expr)) :
    Spares name (handle ev caught binder handler) := by
  have hrun : Spares name (runHandler ev caught binder handler) := by
    refine spares_heap.bind fun heap => ?_
    refine (spares_record _).bind fun _ => ?_
    cases binder with
    | none => exact spares_body h
    | some bound => exact (spares_bind_name (hbinder bound rfl) _).bind fun _ => spares_body h
  have hlink (inner : ErrorId) : Spares name (throwLinked caught inner) := by
    refine spares_heap.bind fun heap => ?_
    split
    · exact (spares_perform _).bind fun _ => spares_throw _
    · exact spares_throw _
  intro state
  have hstate := hrun state
  rw [handle_run]
  split
  · rename_i inner after hthrown
    rw [hthrown] at hstate
    exact hstate.trans (hlink inner after)
  · exact hstate

theorem spares_try_catch {exprs : List Expr} {binder : Option String} {handler : List Expr}
    (hbinder : ∀ bound ∈ binder, name ≠ bound) (hexprs : ∀ expr ∈ exprs, Spares name (ev expr))
    (hhandler : ∀ expr ∈ handler, Spares name (ev expr)) :
    Spares name (tryCatch ev exprs binder handler) := by
  intro state
  have hbody := spares_body hexprs state
  unfold tryCatch
  split
  · rename_i error after hthrown
    rw [hthrown] at hbody
    exact hbody.trans (spares_handle error hbinder hhandler after)
  · rename_i after hfault
    rw [hfault] at hbody
    have hrecover := (spares_perform (Action.newError .recursionError [recursionMessage])).bind
      fun error => spares_handle error hbinder hhandler
    exact hbody.trans (hrecover after)
  · exact hbody

theorem spares_throw_value {value : Expr} {cause : Option Expr} (hvalue : Spares name (ev value))
    (hcause : ∀ expr ∈ cause, Spares name (ev expr)) :
    Spares name (throwValue ev value cause) := by
  refine hvalue.bind fun thrown => ?_
  refine (spares_perform _).bind fun error => ?_
  cases cause with
  | none => exact spares_throw _
  | some expr =>
      refine (hcause expr rfl).bind fun causeValue => ?_
      refine (spares_perform _).bind fun linked => ?_
      exact (spares_perform _).bind fun _ => spares_throw _

theorem spares_return_value {value : Option Expr} (h : ∀ expr ∈ value, Spares name (ev expr)) :
    Spares name (returnValue ev value) := by
  cases value with
  | none => exact spares_throw _
  | some expr => exact (h expr rfl).bind fun result => spares_throw _

theorem spares_destructure {bound : List String} {expr : Expr} (hbound : name ∉ bound)
    (h : Spares name (ev expr)) : Spares name (destructure ev bound expr) := by
  refine h.bind fun value => ?_
  refine (spares_perform _).bind fun items => ?_
  have hall : Spares name (do bindAll (bound.zip items); return value : Eval Value) := by
    refine Spares.bind (spares_bind_all fun hmem => hbound ?_) fun _ => spares_pure _
    obtain ⟨pair, hpair, rfl⟩ := List.mem_map.mp hmem
    exact (List.of_mem_zip hpair).1
  by_cases hfew : items.length < bound.length
  · simp only [hfew, if_true]
    refine (spares_raise _ _).bind fun _ => ?_
    split
    · exact (spares_raise _ _).bind fun _ => hall
    · exact hall
  · simp only [hfew, if_false]
    split
    · exact (spares_raise _ _).bind fun _ => hall
    · exact hall

theorem spares_class_members {members : List Expr} (definition : ClassDef)
    (h : ∀ expr ∈ members.filterMap Expr.fieldDefault?, Spares name (ev expr)) :
    Spares name (classMembers ev members definition) := by
  have hrest {member : Expr} {rest : List Expr}
      (h : ∀ expr ∈ (member :: rest).filterMap Expr.fieldDefault?, Spares name (ev expr)) :
      ∀ expr ∈ rest.filterMap Expr.fieldDefault?, Spares name (ev expr) := by
    intro expr hexpr
    obtain ⟨other, hother, hdefault⟩ := List.mem_filterMap.mp hexpr
    exact h expr (List.mem_filterMap.mpr ⟨other, List.mem_cons_of_mem member hother, hdefault⟩)
  induction members, definition using classMembers.induct with
  | case1 definition => exact spares_pure definition
  | case2 method parameters exprs rest definition ih =>
      exact (spares_make_function method parameters exprs).bind fun id => ih id (hrest h)
  | case3 field value rest definition ih =>
      exact (h value List.mem_cons_self).bind fun default => ih default (hrest h)
  | case4 field value rest definition ih =>
      exact (h value List.mem_cons_self).bind fun default => ih default (hrest h)
  | case5 field typeName value rest definition ih =>
      exact (h value List.mem_cons_self).bind fun default => ih default (hrest h)
  | case6 member rest definition hfunction hassign hlet htyped =>
      rw [classMembers]
      · exact spares_raise _ _
      all_goals assumption

theorem spares_define_class (className : String) (bases : List String) {members : List Expr}
    (h : ∀ expr ∈ members.filterMap Expr.fieldDefault?, Spares name (ev expr)) :
    Spares name (defineClass ev className bases members) := by
  have hrest (base : Option (ClassId × String)) :=
    (spares_class_members ⟨className, .regular, base.map (·.1), .empty, .empty, []⟩ h).bind
      fun definition => (spares_add_class definition).bind fun _ =>
        (spares_record (.classDefined className (base.map (·.2)))).bind fun _ =>
          spares_pure Value.null
  unfold defineClass
  split
  · exact (spares_pure _).bind hrest
  · refine (spares_lookup_class _).bind fun id => ?_
    refine spares_heap.bind fun heap => ?_
    have hnext := (spares_pure (some (id, (heap.classDef id).name))).bind hrest
    dsimp only
    split
    · exact (spares_raise _ _).bind fun _ => hnext
    · exact hnext

theorem spares_record_fields (definition : ClassDef) {fields : List (String × Expr)}
    (h : ∀ field ∈ fields, Spares name (ev field.2)) (bound : Table Value) :
    Spares name (recordFields ev definition fields bound) := by
  induction fields generalizing bound with
  | nil => exact spares_pure bound
  | cons field fields ih =>
      have hvalue := (h field List.mem_cons_self).bind fun value =>
        ih (fun other hother => h other (List.mem_cons_of_mem field hother))
          (bound.insert field.1 value)
      unfold recordFields
      split
      · exact (spares_raise _ _).bind fun _ => hvalue
      · exact hvalue

theorem spares_new_record (className : String) {fields : List (String × Expr)}
    (h : ∀ field ∈ fields, Spares name (ev field.2)) :
    Spares name (newRecord ev className fields) := by
  refine (spares_lookup_class className).bind fun id => ?_
  refine spares_heap.bind fun heap => ?_
  have hnew := (spares_record_fields (heap.classDef id) h (heap.fieldDefaults id)).bind
    fun bound => (spares_perform (Action.newInstance ⟨id, bound⟩)).bind
      fun object => spares_pure (Value.object object)
  dsimp only
  split
  · exact (spares_raise _ _).bind fun _ => hnew
  · exact hnew

theorem spares_set_items {exprs : List Expr} (h : ∀ expr ∈ exprs, Spares name (ev expr))
    (keys : List Value) : Spares name (setItems ev exprs keys) := by
  induction exprs generalizing keys with
  | nil => exact spares_pure keys
  | cons expr exprs ih =>
      refine (h expr List.mem_cons_self).bind fun key => ?_
      refine (spares_perform _).bind fun _ => ?_
      exact ih (fun other hother => h other (List.mem_cons_of_mem expr hother)) _

theorem spares_dict_pairs {pairs : List (Expr × Expr)}
    (h : ∀ pair ∈ pairs, Spares name (ev pair.1) ∧ Spares name (ev pair.2)) (dict : Dict) :
    Spares name (dictPairs ev pairs dict) := by
  induction pairs generalizing dict with
  | nil => exact spares_pure dict
  | cons pair pairs ih =>
      obtain ⟨hkey, hvalue⟩ := h pair List.mem_cons_self
      refine hkey.bind fun key => ?_
      refine (spares_perform _).bind fun _ => ?_
      refine hvalue.bind fun value => ?_
      exact ih (fun other hother => h other (List.mem_cons_of_mem pair hother)) _

/-- The elements of a comprehension are evaluated in a copy of the scope, so only its iterable
counts. -/
theorem spares_comprehension (element : Expr) (binder : String) {iterable : Expr}
    (h : Spares name (ev iterable)) : Spares name (comprehension ev element binder iterable) := by
  have hsource : Spares name (sourceItems ev iterable) :=
    h.bind fun source => spares_perform _
  intro state
  have hstate := hsource state
  rw [comprehension_run]
  rcases hrun : sourceItems ev iterable state with ⟨exit | items, middle⟩
  · rw [hrun] at hstate
    exact hstate
  · rw [hrun] at hstate
    dsimp only
    split
    · exact hstate
    · rename_i found left hfound
      exact hstate.trans (spares_perform _ { left with scope := middle.scope })

/-! ## All constructs -/

theorem forall_mem_two {holds : Expr → Prop} {left right : Expr} :
    (∀ expr ∈ [left, right], holds expr) ↔ holds left ∧ holds right := by
  simp only [List.forall_mem_cons, List.not_mem_nil, false_implies, implies_true, and_true]

/-- What holds of both sides of all pairs. -/
theorem forall_mem_sides {holds : Expr → Prop} {pairs : List (Expr × Expr)} :
    (∀ expr ∈ pairs.flatMap fun pair => [pair.1, pair.2], holds expr) ↔
      ∀ pair ∈ pairs, holds pair.1 ∧ holds pair.2 := by
  simp only [List.forall_mem_flatMap, forall_mem_two]

/-- Every construct spares the names that it does not bind, if the evaluation of its parts does. -/
theorem spares_step {expr : Expr} (fuel : Nat) (hown : name ∉ expr.ownNames)
    (hparts : ∀ part ∈ expr.sharedParts, Spares name (ev part)) :
    Spares name (step ev fuel expr) := by
  cases expr with
  | int | string | bytes | bool | null => exact spares_pure _
  | float | imaginary => exact spares_perform _
  | name other => exact spares_lookup other
  | breakLoop | continueLoop => exact spares_throw _
  | defineFunction function parameters exprs =>
      exact spares_define_function function parameters exprs
  | defineStruct struct fields => exact spares_define_struct struct fields
  | defineEnum enum variants => exact spares_define_enum enum variants
  | enumVariant enum variant => exact spares_enum_variant enum variant
  | importModule target => exact spares_import_module (List.ne_of_not_mem_cons hown)
  | binary operator left right =>
      have ⟨hleft, hright⟩ := forall_mem_two.mp hparts
      exact spares_binary operator hleft hright
  | unary operator operand =>
      exact (hparts operand List.mem_cons_self).bind fun value => spares_perform _
  | letBind bound value | typedLet bound _ value | assign bound value =>
      refine (hparts value List.mem_cons_self).bind fun result => ?_
      exact (spares_bind_name (List.ne_of_not_mem_cons hown) result).bind fun _ => spares_pure _
  | constBind bound value =>
      refine (hparts value List.mem_cons_self).bind fun result => ?_
      exact (spares_bind_constant (List.ne_of_not_mem_cons hown) result).bind fun _ =>
        spares_pure _
  | destructure bound value => exact spares_destructure hown (hparts value List.mem_cons_self)
  | assignIndex collection place value =>
      have ⟨hcollection, hrest⟩ := List.forall_mem_cons.mp hparts
      have ⟨hplace, hvalue⟩ := forall_mem_two.mp hrest
      refine hcollection.bind fun collection => hplace.bind fun place => ?_
      exact hvalue.bind fun value => (spares_perform _).bind fun _ => spares_pure value
  | assignAttribute object field value =>
      have ⟨hobject, hvalue⟩ := forall_mem_two.mp hparts
      refine hobject.bind fun object => hvalue.bind fun value => ?_
      exact (spares_set_attribute object field value).bind fun _ => spares_pure value
  | block exprs => exact spares_body hparts
  | ifThen test thenBody elseBranch =>
      have ⟨htest, hbranches⟩ := List.forall_mem_cons.mp hparts
      have ⟨hthen, helse⟩ := List.forall_mem_append.mp hbranches
      exact spares_if_then htest hthen fun expr hexpr =>
        helse expr (Option.mem_toList.mpr hexpr)
  | whileLoop test exprs =>
      have ⟨htest, hexprs⟩ := List.forall_mem_cons.mp hparts
      exact spares_while_rounds htest hexprs fuel .null
  | forLoop binder iterable exprs =>
      have ⟨hiterable, hexprs⟩ := List.forall_mem_cons.mp hparts
      refine hiterable.bind fun source => (spares_perform _).bind fun items => ?_
      exact spares_for_rounds (List.ne_of_not_mem_cons hown) hexprs items .null
  | matchOn subject arms =>
      have ⟨hsubject, harms⟩ := List.forall_mem_cons.mp hparts
      exact hsubject.bind fun value => spares_match_arms value (forall_mem_sides.mp harms)
  | tryCatch exprs binder handler =>
      have ⟨hexprs, hhandler⟩ := List.forall_mem_append.mp hparts
      refine spares_try_catch ?_ hexprs hhandler
      rintro bound hbound rfl
      exact hown (Option.mem_toList.mpr hbound)
  | «throwError» value cause =>
      have ⟨hvalue, hcause⟩ := List.forall_mem_cons.mp hparts
      exact spares_throw_value hvalue fun expr hexpr => hcause expr (Option.mem_toList.mpr hexpr)
  | returnValue value =>
      exact spares_return_value fun expr hexpr => hparts expr (Option.mem_toList.mpr hexpr)
  | defineClass className bases members => exact spares_define_class className bases hparts
  | call callee items =>
      have ⟨hcallee, hitems⟩ := List.forall_mem_cons.mp hparts
      exact spares_call hcallee hitems
  | index collection place =>
      have ⟨hcollection, hplace⟩ := forall_mem_two.mp hparts
      exact hcollection.bind fun collection => hplace.bind fun place => spares_perform _
  | getAttribute object field | ownField object field =>
      refine (hparts object List.mem_cons_self).bind fun object => ?_
      exact spares_get_attribute object field
  | methodCall object method items =>
      have ⟨hobject, hitems⟩ := List.forall_mem_cons.mp hparts
      exact spares_method_call method hobject hitems
  | newObject className items =>
      refine (spares_lookup_class className).bind fun id => ?_
      exact (spares_values hparts).bind fun arguments => spares_instantiate ev id arguments
  | newRecord className fields =>
      exact spares_new_record className fun field hfield =>
        hparts field.2 (List.mem_map_of_mem hfield)
  | list items | tuple items => exact (spares_values hparts).bind fun values => spares_perform _
  | set items => exact (spares_set_items hparts []).bind fun keys => spares_perform _
  | dict pairs =>
      refine Spares.bind ?_ fun dict => spares_perform _
      exact spares_dict_pairs (forall_mem_sides.mp hparts) Dict.empty
  | comprehension element binder iterable =>
      exact spares_comprehension element binder (hparts iterable List.mem_cons_self)

/-- An evaluation spares all names but those that the expression binds. -/
theorem spares_evaluate {expr : Expr} (h : ¬expr.Binds name) (fuel : Nat) :
    Spares name (evaluate fuel expr) := by
  induction fuel generalizing expr with
  | zero => exact spares_throw _
  | succ fuel ih =>
      refine spares_step fuel (fun hown => h (.own hown)) fun part hpart => ?_
      exact ih fun hbinds => h (.part hpart hbinds)

end Eval

/-- However the evaluation of an expression ends, a name that the expression does not bind has
kept its binding in the scope, and is constant or variable as before; and a call of a function,
method or constructor leaves all names of its caller so. -/
theorem scope_frame (fuel : Nat) (state : EvalState) (name : String) :
    (∀ expr : Expr, ¬expr.Binds name →
      let after := (Eval.evaluate fuel expr state).2
      after.scope.get? name = state.scope.get? name ∧
        after.scope.isConstant name = state.scope.isConstant name) ∧
    ∀ (callee : Value) (items : List Value),
      let after := (Eval.callValue (Eval.evaluate fuel) callee items state).2
      after.scope.get? name = state.scope.get? name ∧
        after.scope.isConstant name = state.scope.isConstant name := by
  constructor
  · intro expr hbinds
    have hsame := Eval.spares_evaluate hbinds fuel state
    exact ⟨hsame.value, hsame.constant⟩
  · intro callee items
    have hsame : state.scope.SameAt name _ :=
      Eval.spares_call_value (Eval.evaluate fuel) callee items state
    exact ⟨hsame.value, hsame.constant⟩

/-- The caller's `x` is what it was after a loop that calls a function which assigns to its own
`x`, also if the loop is left by an error. -/
theorem scope_frame_loop :
    let start : EvalState := ⟨.empty, .initial 1000 (Console.ofInput "")⟩
    let state := (Eval.evaluate 5 (.block [.letBind "x" (.int 1),
      .defineFunction "f" [] [.assign "x" (.int 2), .throwError (.name "x") none]]) start).2
    let expr : Expr := .forLoop "y" (.list [.int 0]) [.call (.name "f") []]
    ¬expr.Binds "x" ∧ (Eval.evaluate 9 expr state).2.scope.get? "x" = some (.int 1) ∧
      (Eval.callValue (Eval.evaluate 9) (.function 0) [] state).2.scope.get? "x" =
        some (.int 1) := by
  intro start state expr
  have hitem : ¬(Expr.int 0).Binds "x" := Expr.not_binds nofun nofun
  have hcallee : ¬(Expr.name "f").Binds "x" := Expr.not_binds nofun nofun
  have hiterable : ¬(Expr.list [.int 0]).Binds "x" :=
    Expr.not_binds nofun (List.forall_mem_singleton.mpr hitem)
  have hcall : ¬(Expr.call (.name "f") []).Binds "x" :=
    Expr.not_binds nofun (List.forall_mem_singleton.mpr hcallee)
  have hbinds : ¬expr.Binds "x" :=
    Expr.not_binds (by decide) (Eval.forall_mem_two.mpr ⟨hiterable, hcall⟩)
  exact ⟨hbinds, ((scope_frame 9 state "x").1 expr hbinds).1,
    ((scope_frame 9 state "x").2 (.function 0) []).1⟩

end Script
