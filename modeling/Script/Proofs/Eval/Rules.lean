import Script.Proofs.Eval.Composition

/-!
# The rules of the evaluator

Each rule agrees with itself run on another evaluation of the parts, if the two evaluations agree
in every state that is reached. This is shown for each way in which rules are put together, and for
the handling of errors. `agree_step` says so for all rules, and `evaluate_becomes` is what follows
for the evaluator itself by induction on its fuel.
-/

namespace Script.Eval

open EvalState

variable {α β : Type} {start : EvalState}

/-! ## What a rule does besides evaluating parts -/

/-- Binding a name fails, or the name is neither frozen nor constant. -/
theorem check_writable_run (name : String) (state : EvalState) :
    (∃ exit after, checkWritable name state = (.error exit, after) ∧ state.Becomes after) ∨
      checkWritable name state = (.ok (), state) ∧ frozenValue? name = none ∧
        state.scope.isConstant name = false := by
  have hraise (message : String) :
      ∃ exit after, (raise .typeError message : Eval Unit) state = (.error exit, after) ∧
        state.Becomes after :=
    ⟨_, _, rfl, .operation state (.newError _ _ _)⟩
  unfold checkWritable
  by_cases hfrozen : (frozenValue? name).isSome
  · obtain ⟨exit, after, hrun, hbecomes⟩ := hraise s!"cannot assign to {name}"
    refine .inl ⟨exit, after, ?_, hbecomes⟩
    simp only [hfrozen, if_true, run_bind, hrun]
  · by_cases hconstant : state.scope.isConstant name
    · obtain ⟨exit, after, hrun, hbecomes⟩ := hraise s!"cannot reassign constant '{name}'"
      refine .inl ⟨exit, after, ?_, hbecomes⟩
      simp only [hfrozen]
      show (if state.scope.isConstant name then _ else _ : Eval Unit) state = _
      rw [if_pos hconstant, hrun]
    · refine .inr ⟨?_, by simpa using hfrozen, by simpa using hconstant⟩
      simp only [hfrozen]
      show (if state.scope.isConstant name then _ else _ : Eval Unit) state = _
      rw [if_neg hconstant]
      rfl

theorem agree_bind_name (name : String) (value : Value) :
    Agree start (bindName name value) (bindName name value) := by
  intro state _
  refine ⟨rfl, ?_⟩
  unfold bindName
  rw [run_bind]
  obtain ⟨exit, after, hrun, hbecomes⟩ | ⟨hrun, hfrozen, hconstant⟩ :=
    check_writable_run name state
  · rw [hrun]
    exact hbecomes
  · rw [hrun]
    exact .bind state name value hfrozen hconstant

theorem agree_bind_constant (name : String) (value : Value) :
    Agree start (bindConstant name value) (bindConstant name value) := by
  intro state _
  refine ⟨rfl, ?_⟩
  unfold bindConstant
  rw [run_bind]
  obtain ⟨exit, after, hrun, hbecomes⟩ | ⟨hrun, hfrozen, hconstant⟩ :=
    check_writable_run name state
  · rw [hrun]
    exact hbecomes
  · rw [hrun]
    exact .bindConstant state name value hfrozen hconstant

/-- An application changes the heap as built-in operations do, or links two errors. -/
theorem application_becomes {application : Application} {state : EvalState} {after : Heap}
    (h : application.effect state.world.heap = .ok after) :
    state.Becomes (state.withHeap after) := by
  obtain ⟨error, caught, rfl⟩ | ⟨_, action, heq, hwithin⟩ := application.cases_effect
  · cases h
    exact .setContext state error caught
  · rw [heq] at h
    obtain ⟨result, hrun⟩ := Action.exists_of_effect h
    exact .operation state (hwithin.changes hrun).evolves

theorem agree_apply {action : Action α} (application : Application)
    (h : action.effect = application.effect) :
    Agree start (perform action) (perform action) := by
  intro state _
  refine ⟨rfl, ?_⟩
  unfold perform
  split
  · rename_i result heap hrun
    have heffect := Action.effect_of_ok hrun
    rw [h] at heffect
    exact application_becomes heffect
  · exact .refl state
  · exact .operation state (.newError _ _ _)

/-- What uses the console, which fails then as before. -/
theorem agree_on_console {use : Console → Except StreamFault α × Console}
    (h : ∀ console : Console, console.Remains (use console).2) :
    Agree start (onConsole use) (onConsole use) := by
  intro state _
  refine ⟨rfl, ?_⟩
  have hremains := h state.world.console
  rw [on_console_run]
  generalize use state.world.console = outcome at hremains
  rcases outcome with ⟨fault | result, console⟩
  · cases fault with
    | system reason =>
        exact .trans (.console state hremains) (agree_raise .osError reason).becomes
    | closed | undecodable | unencodable => exact .console state hremains
  · exact .console state hremains

theorem agree_write (text : String) : Agree start (write text) (write text) :=
  agree_on_console (Console.Remains.write · text)

theorem agree_read_line : Agree start readLine readLine :=
  agree_on_console Console.Remains.read_line

/-! ## Calls and loops -/

/-- At the end of a call or program, an error is all that may still be made. -/
theorem at_boundary_becomes {run : Eval Value} {state : EvalState}
    (h : state.Becomes (run state).2) : state.Becomes (atBoundary run state).2 := by
  unfold atBoundary
  rcases hrun : run state with ⟨result, after⟩
  rw [hrun] at h
  split
  · rename_i hreturn
    cases hreturn
    exact h
  · rename_i hjump
    cases hjump
    exact h.trans (agree_raise _ _ after .here).2
  · exact h

/-- The body of a call runs one call deeper, and the scope of the caller is there again after it. -/
theorem in_frame_run (frame : Scope) (run : Eval Value) (state : EvalState) :
    inFrame frame run state =
      ((run (state.entering frame)).1, state.returning (run (state.entering frame)).2) :=
  rfl

/-- What a call comes to, after its checks. -/
theorem call_function_run (ev : Evaluator) (id : FunctionId) (items : List Value)
    (receiver : Option InstanceId) (state : EvalState) :
    callFunction ev id items receiver state =
      let definition := state.world.heap.function id
      let parameters := definition.openParameters receiver
      if items.length ≠ parameters.length then
        raise .typeError (wrongCount definition.name parameters.length items.length) state
      else if state.world.maxDepth ≤ state.world.depth then
        raise .recursionError recursionMessage state
      else
        atBoundary (inFrame (state.frame id receiver items) (body ev definition.body)) state := by
  unfold callFunction
  rw [run_bind]
  show (if items.length ≠ _ then _ else _ : Eval Value) state = _
  dsimp only
  unfold EvalState.frame FunctionDef.openParameters
  -- The parameters are named, or the tests below would be split along with their definition.
  generalize (if receiver.isSome && (state.world.heap.function id).takesSelf then
    (state.world.heap.function id).parameters.tail
    else (state.world.heap.function id).parameters) = parameters
  split
  · rw [run_bind]
    rfl
  · show (if state.world.maxDepth ≤ state.world.depth then _ else _ : Eval Value) state = _
    split
    · rw [run_bind]
      rfl
    · rfl

/-- A call of a name in the table of functions. -/
theorem call_run_function {name : String} {id : FunctionId} {state : EvalState}
    (h : state.world.functions.get? name = some id) (ev : Evaluator) (items : List Expr) :
    call ev (.name name) items state =
      (values ev items >>= fun arguments => callFunction ev id arguments none) state := by
  rw [call_name_run, h]

/-- A call of anything else. -/
theorem call_run_value {callee : Expr} {state : EvalState}
    (h : ∀ name, callee = .name name → state.world.functions.get? name = none) (ev : Evaluator)
    (items : List Expr) :
    call ev callee items state =
      (ev callee >>= fun target => values ev items >>= callValue ev target) state := by
  cases callee with
  | name name =>
      rw [call_name_run, h name rfl]
  | _ => rfl

variable {ev other : Evaluator} (hev : ∀ expr, Agree start (ev expr) (other expr))
include hev

theorem agree_statements (exprs : List Expr) (last : Value) :
    Agree start (statements ev exprs last) (statements other exprs last) := by
  induction exprs generalizing last with
  | nil => exact agree_pure last
  | cons expr exprs ih => exact agree_bind (hev expr) ih

theorem agree_body (exprs : List Expr) : Agree start (body ev exprs) (body other exprs) :=
  agree_statements hev exprs .null

theorem agree_call_function (id : FunctionId) (items : List Value)
    (receiver : Option InstanceId) :
    Agree start (callFunction ev id items receiver) (callFunction other id items receiver) := by
  intro state hreached
  rw [call_function_run, call_function_run]
  dsimp only
  split
  · exact agree_raise _ _ state hreached
  · rename_i hcount
    split
    · exact agree_raise _ _ state hreached
    · rename_i hdepth
      have henters : state.Enters (state.entering (state.frame id receiver items)) :=
        .call id receiver items (by omega) (by omega)
      obtain ⟨heq, hbecomes⟩ :=
        agree_body hev (state.world.heap.function id).body _ (hreached.call henters)
      -- The body runs in a state of its own, which is reached because the call has begun.
      refine ⟨?_, at_boundary_becomes (.call henters hbecomes)⟩
      unfold atBoundary
      rw [in_frame_run, in_frame_run, heq]

theorem agree_loop_round (exprs : List Expr) :
    Agree start (loopRound ev exprs) (loopRound other exprs) := by
  intro state hreached
  obtain ⟨heq, hbecomes⟩ := agree_body hev exprs state hreached
  unfold loopRound
  rw [← heq]
  refine ⟨rfl, ?_⟩
  rcases hrun : body ev exprs state with ⟨result, after⟩
  rw [hrun] at hbecomes
  split <;> rename_i hend <;> cases hend <;> exact hbecomes

omit hev in
/-- What is run aside works in the scope that was there before its source. -/
theorem agree_aside {source source' : Eval α} {run run' : α → Eval β}
    (hsource : Agree start source source')
    (hrun : ∀ result, Agree start (run result) (run' result)) :
    Agree start (aside source run) (aside source' run') := by
  intro state hreached
  obtain ⟨heq, hbecomes⟩ := hsource state hreached
  unfold aside
  rw [← heq]
  rcases hmiddle : source state with ⟨exit | result, middle⟩
  · rw [hmiddle] at hbecomes
    exact ⟨rfl, hbecomes⟩
  · rw [hmiddle] at hbecomes
    obtain ⟨heq', hbecomes'⟩ := hrun result _ (hreached.comprehension hbecomes)
    dsimp only
    rw [← heq']
    exact ⟨rfl, .comprehension hbecomes hbecomes'⟩

/-- A rule agrees with itself run on another evaluation of the parts. -/
theorem Composed.agree {ingredients : Ingredients} {rule : Evaluator → Eval α}
    (h : Composed ingredients rule) : Agree start (rule ev) (rule other) := by
  induction h with
  | pure result => exact agree_pure result
  | throw => exact agree_throw _
  | look _ _ ihnext => exact agree_bind agree_get ihnext
  | bind _ _ ihfirst ihnext => exact agree_bind ihfirst ihnext
  | ask => exact hev _
  | perform haction => exact agree_perform haction
  | apply application heffect => exact agree_apply application heffect
  | newInstance contents => exact fun state _ => ⟨rfl, .newInstance state contents⟩
  | setField id name value => exact fun state _ => ⟨rfl, .setField state id name value⟩
  | newFunction _ hparameters => exact fun state _ => ⟨rfl, .newFunction state _ hparameters⟩
  | newClass definition => exact fun state _ => ⟨rfl, .newClass state definition⟩
  | bindName name value => exact agree_bind_name name value
  | bindConstant name value => exact agree_bind_constant name value
  | record event => exact agree_record event
  | write text => exact agree_write text
  | readLine => exact agree_read_line
  | nameFunction name id => exact fun state _ => ⟨rfl, .nameFunction state name id⟩
  | nameClass name id => exact fun state _ => ⟨rfl, .nameClass state name id⟩
  | call id items receiver => exact agree_call_function hev id items receiver
  | round => exact agree_loop_round hev _
  | aside _ _ ihsource ihrun => exact agree_aside ihsource ihrun

/-! ## Errors -/

/-- The run of a handler, before an error that it throws is linked. -/
def runHandler (ev : Evaluator) (caught : ErrorId) (binder : Option String)
    (handler : List Expr) : Eval Value := do
  record (.caught ((← heap).error caught).format)
  if let some name := binder then bindName name (.error caught)
  body ev handler

/-- Throws an error of a handler, linked to the error that was handled. -/
def throwLinked (caught inner : ErrorId) : Eval Value := do
  if inner ≠ caught && ((← heap).error inner).context.isNone then
    perform (Action.setError inner fun error => { error with context := some caught })
  throw (.thrown inner)

omit hev in
/-- A handler is run, and then its error is linked. -/
theorem handle_run (ev : Evaluator) (caught : ErrorId) (binder : Option String)
    (handler : List Expr) (state : EvalState) :
    handle ev caught binder handler state =
      match runHandler ev caught binder handler state with
      | (.error (.thrown inner), after) => throwLinked caught inner after
      | result => result :=
  rfl

/-! ## How a rule goes on -/

/-- What the end of its statements means for a round of a loop. -/
def roundOf : Except Exit Value × EvalState → Except Exit (Value × Bool) × EvalState
  | (.ok value, state) => (.ok (value, false), state)
  | (.error (.jump .breaking), state) => (.ok (.null, true), state)
  | (.error (.jump .continuing), state) => (.ok (.null, false), state)
  | (.error exit, state) => (.error exit, state)

omit hev in
/-- A round of a loop looks at how its statements end only. -/
theorem loop_round_run (ev : Evaluator) (exprs : List Expr) (state : EvalState) :
    loopRound ev exprs state = roundOf (body ev exprs state) :=
  rfl

/-- An error that is thrown by a handler is linked to the one that has been caught. -/
def linkThrown (caught : ErrorId) :
    Except Exit Value × EvalState → Except Exit Value × EvalState
  | (.error (.thrown inner), state) => throwLinked caught inner state
  | outcome => outcome

omit hev in
/-- Handling an error looks at how the handler ends only. -/
theorem handle_linked (ev : Evaluator) (caught : ErrorId) (binder : Option String)
    (handler : List Expr) (state : EvalState) :
    handle ev caught binder handler state =
      linkThrown caught (runHandler ev caught binder handler state) :=
  rfl

/-- Errors and calls that are nested too deeply are handled, and nothing else is. -/
def handleCaught (ev : Evaluator) (binder : Option String) (handler : List Expr) :
    Except Exit Value × EvalState → Except Exit Value × EvalState
  | (.error (.thrown error), state) => handle ev error binder handler state
  | (.error (.fault .recursion), state) =>
    (perform (Action.newError .recursionError [recursionMessage]) >>= fun error =>
      handle ev error binder handler) state
  | outcome => outcome

omit hev in
/-- A `try` handles what its statements end with. -/
theorem try_catch_run (ev : Evaluator) (exprs : List Expr) (binder : Option String)
    (handler : List Expr) (state : EvalState) :
    tryCatch ev exprs binder handler state =
      handleCaught ev binder handler (body ev exprs state) :=
  rfl

omit hev in
theorem composed_run_handler {ingredients : Ingredients} (caught : ErrorId)
    (binder : Option String) {handler : List Expr}
    (h : ∀ expr ∈ handler, expr ∈ ingredients.parts) :
    Composed ingredients fun ev => runHandler ev caught binder handler := by
  refine .bind .heap fun heap => .bind (.record _) fun _ => ?_
  cases binder with
  | none => exact composed_body h
  | some name => exact .bind (.bindName name _) fun _ => composed_body h

omit hev in
theorem agree_throw_linked (caught inner : ErrorId) :
    Agree start (throwLinked caught inner) (throwLinked caught inner) := by
  unfold throwLinked
  refine agree_bind agree_heap fun heap => ?_
  split
  · refine agree_bind (fun state _ => ⟨rfl, .setContext state inner caught⟩) fun _ => ?_
    exact agree_throw _
  · exact agree_throw _

theorem agree_handle (caught : ErrorId) (binder : Option String) (handler : List Expr) :
    Agree start (handle ev caught binder handler) (handle other caught binder handler) := by
  intro state hreached
  have hrun : Composed (Expr.tryCatch [] binder handler).ingredients fun ev =>
      runHandler ev caught binder handler :=
    composed_run_handler caught binder fun _ h => h
  obtain ⟨heq, hbecomes⟩ := hrun.agree hev state hreached
  rw [handle_run, handle_run, ← heq]
  refine ⟨rfl, ?_⟩
  split
  · rename_i inner after hthrown
    rw [hthrown] at hbecomes
    exact hbecomes.trans (agree_throw_linked caught inner).becomes
  · exact hbecomes

theorem agree_try_catch (exprs : List Expr) (binder : Option String) (handler : List Expr) :
    Agree start (tryCatch ev exprs binder handler) (tryCatch other exprs binder handler) := by
  intro state hreached
  obtain ⟨heq, hbecomes⟩ := agree_body hev exprs state hreached
  have hhandle (error : ErrorId) := agree_handle hev error binder handler
  unfold tryCatch
  rw [← heq]
  split
  · rename_i error after hthrown
    rw [hthrown] at hbecomes
    obtain ⟨heq', hbecomes'⟩ := hhandle error after (hreached.later hbecomes)
    exact ⟨heq', hbecomes.trans hbecomes'⟩
  · rename_i after hfault
    rw [hfault] at hbecomes
    have hnew : (Action.newError .recursionError [recursionMessage]).Within .none :=
      Action.within_new_error _ _
    have hrecover := agree_bind (agree_perform hnew) hhandle
    obtain ⟨heq', hbecomes'⟩ := hrecover after (hreached.later hbecomes)
    exact ⟨heq', hbecomes.trans hbecomes'⟩
  · exact ⟨rfl, hbecomes⟩

/-! ## All rules -/

/-- The rule of every construct. -/
theorem agree_step (fuel : Nat) (expr : Expr) :
    Agree start (step ev fuel expr) (step other fuel expr) := by
  by_cases hexpr : HandlesErrors expr
  · cases expr with
    | tryCatch exprs binder handler => exact agree_try_catch hev exprs binder handler
    | _ => exact hexpr.elim
  · exact (composed_step hexpr fuel).agree hev

omit hev in
/-- No evaluation changes the state in any other way. -/
theorem evaluate_becomes (fuel : Nat) (expr : Expr) (state : EvalState) :
    state.Becomes (evaluate fuel expr state).2 := by
  induction fuel generalizing expr state with
  | zero => exact .refl state
  | succ fuel ih =>
      exact (agree_step (fun expr state _ => ⟨rfl, ih expr state⟩) fuel expr).becomes

end Script.Eval
