import Script.Interpreter
import Script.Proofs.Eval.Rules

/-!
# Properties that concern the console

Little of what an evaluation does has to do with the console. `Eval.Inherited` says of a property of
evaluations that whatever neither looks at the console nor changes it has the property, writing has
it, and what is put together from evaluations with the property has it too. Then the rule of a
construct has the property if the evaluation of the parts has it; only of those rules that can call
`input` it has to be known that reading a line has it (`Eval.Inherited.step`).
-/

namespace Script.Eval

/-- The evaluation neither looks at the console nor changes it. -/
def Blind {α : Type} (part : Eval α) : Prop :=
  ∀ state console, part (state.withConsole console) =
    ((part state).1, (part state).2.withConsole console)

theorem Blind.console {α : Type} {part : Eval α} (h : Blind part) (state : EvalState) :
    (part state).2.world.console = state.world.console :=
  congrArg (·.2.world.console) (h state state.world.console)

/-- What evaluations have if all that they are put together from has it. -/
structure Inherited (holds : {α : Type} → Eval α → Prop) : Prop where
  blind {α : Type} {part : Eval α} : Blind part → holds part
  write (text : String) : holds (write text)
  /-- A part may depend on the state, but not on the console. -/
  look {α : Type} {part : Eval α} (next : EvalState → Eval α) :
    (∀ state console, next (state.withConsole console) = next state) →
    (∀ state, part state = next state state) → (∀ state, holds (next state)) → holds part
  /-- A part may go on after another, and depend on how that has ended. -/
  andThen {α β : Type} {part : Eval α} : holds part →
    ∀ finish : Except Exit α × EvalState → Except Exit β × EvalState,
      (∀ result, holds fun state => finish (result, state)) → holds fun state => finish (part state)

namespace Inherited

variable {α β : Type} {holds : {α : Type} → Eval α → Prop} (h : Inherited holds)
include h

theorem pure (result : α) : holds (pure result : Eval α) :=
  h.blind fun _ _ => rfl

theorem throw (exit : Exit) : holds (throw exit : Eval α) :=
  h.blind fun _ _ => rfl

theorem scope : holds Eval.scope :=
  h.blind fun _ _ => rfl

theorem perform (action : Action α) : holds (perform action) := by
  refine h.blind fun state console => ?_
  unfold Eval.perform EvalState.withConsole
  dsimp only
  split <;> rfl

theorem raise (kind : ErrorKind) (message : String) : holds (raise kind message : Eval α) :=
  h.perform (Action.raise kind message)

theorem bind {part : Eval α} {next : α → Eval β} (hpart : holds part)
    (hnext : ∀ result, holds (next result)) : holds (part >>= next) := by
  refine h.andThen hpart (fun outcome => ((fun _ => outcome : Eval α) >>= next) outcome.2) ?_
  intro result
  cases result with
  | ok result => exact hnext result
  | error exit => exact h.throw exit

/-- What is run in a state of its own. Of the state around it, all but the console can be there
again afterwards. -/
theorem within {run : Eval α} (hrun : holds run) (enter : EvalState → EvalState)
    (leave : EvalState → EvalState → EvalState)
    (henter : ∀ state console, enter (state.withConsole console) =
      (enter state).withConsole console)
    (hblind : ∀ state console, leave (state.withConsole console) = leave state)
    (hleave : ∀ state left console, leave state (left.withConsole console) =
      (leave state left).withConsole console) :
    holds fun state => ((run (enter state)).1, leave state (run (enter state)).2) := by
  have hentered : holds fun state => (.ok (), enter state) :=
    h.blind fun state console => congrArg (Except.ok (), ·) (henter state console)
  have hleft := h.andThen hentered (fun outcome => run outcome.2) fun _ => hrun
  refine h.look (fun state current => ((run (enter current)).1,
    leave state (run (enter current)).2)) ?_ (fun _ => rfl) fun state => ?_
  · intro state console
    rw [hblind]
  · refine h.andThen hleft (fun outcome => (outcome.1, leave state outcome.2)) fun result => ?_
    exact h.blind fun left console => congrArg (result, ·) (hleave state left console)

theorem aside {source : Eval α} {run : α → Eval β} (hsource : holds source)
    (hrun : ∀ result, holds (run result)) : holds (aside source run) := by
  refine h.look (fun state current => Eval.aside (fun _ => source current) run state)
    (fun _ _ => rfl) (fun _ => rfl) fun state => ?_
  refine h.andThen hsource (fun outcome => Eval.aside (fun _ => outcome) run state) fun result => ?_
  cases result with
  | error exit => exact h.throw exit
  | ok result =>
      exact h.within (hrun result) (fun middle => { middle with scope := state.scope })
        (fun middle left => { left with scope := middle.scope }) (fun _ _ => rfl)
        (fun _ _ => rfl) fun _ _ _ => rfl

/-! ## Names -/

theorem check_writable (name : String) : holds (checkWritable name) := by
  have hconstant : holds (Eval.scope >>= fun scope =>
      if scope.isConstant name then
        Eval.raise .typeError s!"cannot reassign constant '{name}'"
      else Pure.pure PUnit.unit) := by
    refine h.bind h.scope fun scope => ?_
    split
    · exact h.raise _ _
    · exact h.pure _
  unfold checkWritable
  split
  · exact h.bind (h.raise _ _) fun _ => hconstant
  · exact hconstant

theorem bind_name (name : String) (value : Value) : holds (bindName name value) :=
  h.bind (h.check_writable name) fun _ => h.bind h.scope fun _ => h.blind fun _ _ => rfl

theorem bind_constant (name : String) (value : Value) : holds (bindConstant name value) :=
  h.bind (h.check_writable name) fun _ => h.bind h.scope fun _ => h.blind fun _ _ => rfl

/-! ## How parts go on -/

/-- What is made of a jump at the end of a call or program. -/
theorem after_boundary (result : Except Exit Value) :
    holds fun state => atBoundary (fun _ => (result, state)) state := by
  cases result with
  | ok value => exact h.pure value
  | error exit =>
      cases exit with
      | jump jump =>
          cases jump with
          | returning value => exact h.pure value
          | breaking | continuing => exact h.raise _ _
      | thrown | fault | outOfFuel => exact h.throw _

theorem at_boundary {run : Eval Value} (hrun : holds run) : holds (atBoundary run) :=
  h.andThen hrun (fun outcome => atBoundary (fun _ => outcome) outcome.2) h.after_boundary

/-- What is made of a fault at the end of a program. -/
theorem after_faults (result : Except Exit Value) :
    holds fun state => Interpreter.raiseFaults (fun _ => (result, state)) state := by
  have hthrow (kind : ErrorKind) (arguments : List String) :
      holds (Eval.perform (Action.newError kind arguments) >>= fun error =>
        (Except.error (.thrown error), ·) : Eval Value) :=
    h.bind (h.perform _) fun error => h.throw _
  cases result with
  | ok value => exact h.pure value
  | error exit =>
      cases exit with
      | thrown | jump | outOfFuel => exact h.throw _
      | fault fault =>
          cases fault with
          | recursion | memory | overflow => exact hthrow _ _
          | _ => exact h.throw _

theorem raise_faults {run : Eval Value} (hrun : holds run) :
    holds (Interpreter.raiseFaults run) :=
  h.andThen hrun (fun outcome => Interpreter.raiseFaults (fun _ => outcome) outcome.2)
    h.after_faults

/-! ## Rules -/

section Evaluator

variable {ev : Evaluator} (hev : ∀ expr, holds (ev expr))
include hev

theorem statements (exprs : List Expr) (last : Value) : holds (statements ev exprs last) := by
  induction exprs generalizing last with
  | nil => exact h.pure last
  | cons expr exprs ih => exact h.bind (hev expr) ih

theorem body (exprs : List Expr) : holds (body ev exprs) :=
  h.statements hev exprs .null

theorem call (id : FunctionId) (items : List Value) (receiver : Option InstanceId) :
    holds (callFunction ev id items receiver) := by
  let called (state : EvalState) : Eval Value :=
    let definition := state.world.heap.function id
    let parameters := definition.openParameters receiver
    if items.length ≠ parameters.length then
      Eval.raise .typeError (wrongCount definition.name parameters.length items.length)
    else if state.world.maxDepth ≤ state.world.depth then
      Eval.raise .recursionError recursionMessage
    else atBoundary (inFrame (state.frame id receiver items) (Eval.body ev definition.body))
  refine h.look called (fun _ _ => rfl) (fun state => ?_) fun state => ?_
  · rw [call_function_run]
    dsimp only [called]
    split
    · rfl
    · split <;> rfl
  · dsimp only [called]
    split
    · exact h.raise _ _
    · split
      · exact h.raise _ _
      · refine h.at_boundary ?_
        exact h.within (h.body hev _) (·.entering _) .returning (fun _ _ => rfl) (fun _ _ => rfl)
          fun _ _ _ => rfl

theorem round (exprs : List Expr) : holds (loopRound ev exprs) := by
  refine h.andThen (h.body hev exprs) roundOf fun result => ?_
  cases result with
  | ok value => exact h.pure (value, false)
  | error exit =>
      cases exit with
      | jump jump =>
          cases jump with
          | returning value => exact h.throw _
          | breaking => exact h.pure (Value.null, true)
          | continuing => exact h.pure (Value.null, false)
      | thrown | fault | outOfFuel => exact h.throw _

/-- A rule that is put together from its ingredients inherits the property from its parts. -/
theorem composed {ingredients : Ingredients} {rule : Evaluator → Eval α}
    (hrule : Composed ingredients rule) (hread : ingredients.reads → holds readLine) :
    holds (rule ev) := by
  induction hrule with
  | pure result => exact h.pure result
  | throw => exact h.throw _
  | look hblind _ ihnext =>
      rename_i next _
      exact h.look (fun state => next state ev)
        (fun state console => congrFun (hblind state console) ev) (fun _ => rfl) ihnext
  | bind _ _ ihfirst ihnext => exact h.bind ihfirst ihnext
  | ask => exact hev _
  | perform | apply | newInstance | setField | newFunction | newClass => exact h.perform _
  | bindName name value => exact h.bind_name name value
  | bindConstant name value => exact h.bind_constant name value
  | record | nameFunction | nameClass => exact h.blind fun _ _ => rfl
  | write text => exact h.write text
  | readLine hreads => exact hread hreads
  | call id items receiver => exact h.call hev id items receiver
  | round => exact h.round hev _
  | aside _ _ ihsource ihrun => exact h.aside ihsource ihrun

theorem handle (caught : ErrorId) (binder : Option String) (handler : List Expr) :
    holds (handle ev caught binder handler) := by
  have hrun : Composed (Expr.tryCatch [] binder handler).ingredients fun ev =>
      runHandler ev caught binder handler :=
    composed_run_handler caught binder fun _ h => h
  refine h.andThen (h.composed hev hrun False.elim) (linkThrown caught) fun result => ?_
  cases result with
  | ok value => exact h.pure value
  | error exit =>
      cases exit with
      | thrown inner =>
          refine h.bind (h.blind fun _ _ => rfl) fun heap => ?_
          split
          · exact h.bind (h.perform _) fun _ => h.throw _
          · exact h.throw _
      | jump | fault | outOfFuel => exact h.throw _

theorem try_catch (exprs : List Expr) (binder : Option String) (handler : List Expr) :
    holds (tryCatch ev exprs binder handler) := by
  have hhandle (error : ErrorId) := h.handle hev error binder handler
  refine h.andThen (h.body hev exprs) (handleCaught ev binder handler) fun result => ?_
  cases result with
  | ok value => exact h.pure value
  | error exit =>
      cases exit with
      | thrown error => exact hhandle error
      | jump | outOfFuel => exact h.throw _
      | fault fault =>
          cases fault with
          | recursion => exact h.bind (h.perform _) hhandle
          | _ => exact h.throw _

/-- The rule of every construct inherits the property from its parts. -/
theorem step (fuel : Nat) (expr : Expr) (hread : expr.Reads → holds readLine) :
    holds (step ev fuel expr) := by
  by_cases hexpr : HandlesErrors expr
  · cases expr with
    | tryCatch exprs binder handler => exact h.try_catch hev exprs binder handler
    | _ => exact hexpr.elim
  · exact h.composed hev (composed_step hexpr fuel) hread

end Evaluator

/-- If reading a line has the property, then every evaluation has it. -/
theorem evaluate (hread : holds readLine) (fuel : Nat) (expr : Expr) :
    holds (evaluate fuel expr) := by
  induction fuel generalizing expr with
  | zero => exact h.throw _
  | succ fuel ih => exact h.step ih fuel expr fun _ => hread

end Inherited

end Script.Eval
