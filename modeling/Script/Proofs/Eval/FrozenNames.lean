import Script.Proofs.Eval.Callee
import Script.Proofs.Eval.Reachable

/-!
# Frozen names

No scope ever binds a frozen name: assignments, loops, handlers and imports are refused, and a
function cannot have a frozen name as its parameter. The tables of functions and classes have no
such check, and they are looked into before the frozen names. So a frozen name has its fixed value
exactly as long as no function and no class has been given that name: `frozen_value_iff`.
-/

namespace Script

/-- No frozen name is bound. -/
def Scope.LeavesFrozen (scope : Scope) : Prop :=
  ∀ name value, frozenValue? name = some value → scope.get? name = none

/-- No function has a frozen name as a parameter. -/
def Heap.LeavesFrozen (heap : Heap) : Prop :=
  ∀ id, ∀ parameter ∈ (heap.function id).parameters, frozenValue? parameter = none

namespace Scope.LeavesFrozen

variable {scope : Scope} {name : String} {value : Value}

theorem empty : Scope.empty.LeavesFrozen :=
  fun _ _ _ => rfl

/-- A scope keeps leaving the frozen names alone if another name is bound. -/
theorem insert (h : scope.LeavesFrozen) (hname : frozenValue? name = none) (value : Value)
    (constants : List String) :
    LeavesFrozen ⟨scope.bindings.insert name value, constants⟩ := by
  intro other fixed hother
  have hne : other ≠ name := by
    rintro rfl
    rw [hname] at hother
    cases hother
  show (scope.bindings.insert name value).get? other = none
  rw [Table.get?_insert, if_neg hne]
  exact h other fixed hother

/-- The parameters of a call are bound one after the other. -/
theorem bind_parameters {arguments : List (String × Value)} (h : scope.LeavesFrozen)
    (harguments : ∀ pair ∈ arguments, frozenValue? pair.1 = none) :
    (arguments.foldl (fun scope pair => scope.bindParameter pair.1 pair.2)
      scope).LeavesFrozen := by
  induction arguments generalizing scope with
  | nil => exact h
  | cons pair arguments ih =>
      have hpair : frozenValue? pair.1 = none := harguments pair List.mem_cons_self
      refine ih (h.insert hpair pair.2 _) fun other hother => ?_
      exact harguments other (List.mem_cons_of_mem pair hother)

/-- The scope of a call. -/
theorem for_call {arguments : List (String × Value)} (h : scope.LeavesFrozen)
    (receiver : Option Value) (harguments : ∀ pair ∈ arguments, frozenValue? pair.1 = none) :
    (scope.forCall receiver arguments).LeavesFrozen := by
  unfold forCall
  cases receiver with
  | none => exact h.bind_parameters harguments
  | some receiver =>
      have hself : frozenValue? "self" = none := rfl
      exact (h.insert hself receiver _).bind_parameters harguments

end Scope.LeavesFrozen

/-- Built-in operations define no functions. -/
theorem Heap.Evolves.leaves_frozen {heap after : Heap} (h : heap.Evolves after)
    (hheap : heap.LeavesFrozen) : after.LeavesFrozen := by
  unfold Heap.LeavesFrozen Heap.function at hheap ⊢
  rw [h.functions_eq]
  exact hheap

/-- A function whose parameters are not frozen can be added. -/
theorem Heap.LeavesFrozen.push {heap : Heap} {definition : FunctionDef} (h : heap.LeavesFrozen)
    (hdefinition : ∀ parameter ∈ definition.parameters, frozenValue? parameter = none) :
    LeavesFrozen { heap with functions := heap.functions.push definition } := by
  intro id parameter hparameter
  change parameter ∈ ((heap.functions.push definition).get id).parameters at hparameter
  rw [Store.get_push] at hparameter
  split at hparameter
  · exact hdefinition parameter hparameter
  · exact h id parameter hparameter

namespace EvalState

/-- Neither the scope nor any function has to do with frozen names. -/
structure LeavesFrozen (state : EvalState) : Prop where
  scope : state.scope.LeavesFrozen
  heap : state.world.heap.LeavesFrozen

variable {state : EvalState}

/-- The parameters that are bound are among those of the function. -/
theorem LeavesFrozen.frame (h : state.LeavesFrozen) (id : FunctionId)
    (receiver : Option InstanceId) (items : List Value) :
    (state.frame id receiver items).LeavesFrozen := by
  refine h.scope.for_call _ fun pair hpair => h.heap id pair.1 ?_
  have hmem := (List.of_mem_zip hpair).1
  unfold FunctionDef.openParameters at hmem
  split at hmem
  · exact List.mem_of_mem_tail hmem
  · exact hmem

/-- A call begins in a scope that leaves frozen names alone. -/
theorem LeavesFrozen.enters {entered : EvalState} (h : state.LeavesFrozen)
    (henters : state.Enters entered) : entered.LeavesFrozen := by
  obtain ⟨id, receiver, items, hcount, hdepth⟩ := henters
  exact ⟨h.frame id receiver items, h.heap⟩

/-- Evaluation leaves frozen names alone. -/
theorem LeavesFrozen.becomes {after : EvalState} (h : state.LeavesFrozen)
    (hbecomes : state.Becomes after) : after.LeavesFrozen := by
  induction hbecomes with
  | trans _ _ ih ih' => exact ih' (ih h)
  | operation state hevolves => exact ⟨h.scope, hevolves.leaves_frozen h.heap⟩
  | newFunction state definition hparameters => exact ⟨h.scope, h.heap.push hparameters⟩
  | bind state name value hfrozen hconstant => exact ⟨h.scope.insert hfrozen value _, h.heap⟩
  | bindConstant state name value hfrozen hconstant =>
      exact ⟨h.scope.insert hfrozen value _, h.heap⟩
  | call henters _ ih => exact ⟨h.scope, (ih (h.enters henters)).heap⟩
  -- The elements start from the old scope, but with what the source has done to the heap.
  | comprehension _ _ ih ih' =>
      have hmiddle := ih h
      exact ⟨hmiddle.scope, (ih' ⟨h.scope, hmiddle.heap⟩).heap⟩
  | _ => exact ⟨h.scope, h.heap⟩

/-- Leaving frozen names alone is an invariant. -/
theorem leaves_frozen_invariant : Invariant LeavesFrozen where
  fresh _ _ := ⟨.empty, fun _ _ hparameter => nomatch hparameter⟩
  started h := ⟨h.scope, h.heap⟩
  becomes hbecomes h := h.becomes hbecomes
  enters henters h := h.enters henters
  copies hbecomes h := ⟨h.scope, (h.becomes hbecomes).heap⟩

end EvalState

/-- Frozen names mean neither functions nor classes. -/
theorem frozen_value_ne {name : String} {value : Value} (h : frozenValue? name = some value) :
    (∀ id, value ≠ .function id) ∧ ∀ id, value ≠ .classObject id := by
  unfold frozenValue? at h
  split at h <;> cases h <;> simp

/-- Without a binding, a frozen name has its fixed value unless a function or class has it. -/
theorem World.lookup_frozen_iff {world : World} {scope : Scope} {name : String} {value : Value}
    (hname : frozenValue? name = some value) (hscope : scope.get? name = none) :
    world.lookup? scope name = some value ↔
      world.functions.get? name = none ∧ world.classes.get? name = none := by
  obtain ⟨hfunction, hclass⟩ := frozen_value_ne hname
  unfold World.lookup?
  rw [hscope, hname]
  cases world.functions.get? name with
  | some id =>
    simp [(hfunction id).symm]
  | none =>
    cases world.classes.get? name with
    | some id => simp [(hclass id).symm]
    | none => simp

/-- In every state that occurs, a frozen name is not bound, and evaluating it gives its fixed
value exactly as long as no function and no class has been given that name. -/
theorem frozen_value_iff {state : EvalState} {name : String} {value : Value}
    (hstate : state.Occurs) (hname : frozenValue? name = some value) (fuel : Nat) :
    state.scope.get? name = none ∧
      (Eval.evaluate (fuel + 1) (.name name) state = (.ok value, state) ↔
        state.world.functions.get? name = none ∧ state.world.classes.get? name = none) := by
  have hunbound : state.scope.get? name = none :=
    (EvalState.leaves_frozen_invariant.of_occurs hstate).scope name value hname
  refine ⟨hunbound, ?_⟩
  rw [Eval.evaluate_name_eq_ok_iff]
  exact World.lookup_frozen_iff hname hunbound

/-- The state in a fresh interpreter after some statements. -/
def EvalState.afterStatements (exprs : List Expr) : EvalState :=
  (Eval.body (Eval.evaluate 5) exprs (Interpreter.fresh 1000 (Console.ofInput "")).started).2

/-- That state occurs if the statements do not fail. -/
theorem EvalState.occurs_after_statements {exprs : List Expr} {value : Value}
    (h : Eval.body (Eval.evaluate 5) exprs (Interpreter.fresh 1000 (Console.ofInput "")).started =
      (.ok value, afterStatements exprs)) : (afterStatements exprs).Occurs :=
  .after_statements (.fresh 1000 (Console.ofInput "")) h

/-- After an assignment to another name, `True` is true. -/
theorem frozen_value_after_assignment :
    let state := EvalState.afterStatements [.letBind "x" (.int 1)]
    state.scope.get? "True" = none ∧
      Eval.evaluate 3 (.name "True") state = (.ok (.bool true), state) := by
  have hoccurs : (EvalState.afterStatements [.letBind "x" (.int 1)]).Occurs :=
    EvalState.occurs_after_statements rfl
  have hname : frozenValue? "True" = some (.bool true) := rfl
  obtain ⟨hunbound, hiff⟩ := frozen_value_iff hoccurs hname 2
  exact ⟨hunbound, hiff.mpr ⟨rfl, rfl⟩⟩

/-- After a function of that name has been defined, `True` is that function. -/
theorem frozen_name_redefined :
    let state := EvalState.afterStatements [.defineFunction "True" [] [.int 1]]
    state.Occurs ∧ frozenValue? "True" = some (.bool true) ∧
      Eval.evaluate 3 (.name "True") state = (.ok (.function 0), state) :=
  ⟨EvalState.occurs_after_statements rfl, rfl, rfl⟩

end Script
