import Script.Proofs.Builtin.Escapes
import Script.Proofs.Eval.Rules

/-!
# Faults of streams

Where the system refuses to read or to write, the language has an error for it. Any other fault of a
stream ends the run. Built-in operations do not meet such a fault, and an evaluation does not change
when the console fails; so an evaluation that ends with the fault of a stream has used a console
that breaks with this fault (`Eval.evaluate_streams`).
-/

namespace Script

/-- The console fails at some time, and not because the system refuses. -/
structure Console.Breaks (console : Console) (fault : StreamFault) : Prop where
  fails : (∃ n, console.readsFail n = some fault) ∨ ∃ n text, console.writesFail n text = some fault
  other (reason : String) : fault ≠ .system reason

namespace Console

variable {console : Console} {fault : StreamFault}

theorem write_fails {text : String} (h : (console.write text).1 = .error fault) :
    console.writesFail console.uses text = some fault := by
  unfold write at h
  split at h
  · rename_i found hfound
    cases h
    exact hfound
  · cases h

theorem read_line_fails (h : console.readLine.1 = .error fault) :
    console.readsFail console.uses = some fault := by
  unfold readLine at h
  split at h
  · rename_i found hfound
    cases h
    exact hfound
  · cases h

end Console

/-- No application meets the fault of a stream. -/
theorem Application.no_stream {application : Application} {heap : Heap} {fault : StreamFault} :
    application.effect heap ≠ .error (.fault (.stream fault)) := by
  intro h
  have hallows := allows_of_effect h rfl
  cases application with
  | operator => exact nomatch hallows.2
  | function | method | getItem => exact nomatch hallows
  | setItem | cause | context => exact hallows

namespace Eval

variable {α β : Type} {console : Console} {state : EvalState}

/-- An evaluation has left the console as it fails, and has not ended with the fault of a stream
unless the console breaks with it. -/
structure Streams (console : Console) (outcome : Except Exit α × EvalState) : Prop where
  remains : console.Remains outcome.2.world.console
  breaks {fault : StreamFault} :
    outcome.1 = .error (.fault (.stream fault)) → console.Breaks fault

/-- An exit is passed on. -/
theorem Streams.pass {exit : Exit}
    (h : Streams console ((.error exit, state) : Except Exit α × EvalState)) :
    Streams console ((.error exit, state) : Except Exit β × EvalState) :=
  ⟨h.remains, fun heq => h.breaks (congrArg Except.error (Except.error.inj heq))⟩

/-- The evaluation does so in every state in which the console fails like this one. -/
def KeepsStreams (console : Console) (part : Eval α) : Prop :=
  ∀ state, console.Remains state.world.console → Streams console (part state)

/-! ## What a rule does besides evaluating parts -/

theorem keeps_streams_pure (result : α) : KeepsStreams console (pure result) :=
  fun _ hremains => ⟨hremains, nofun⟩

theorem keeps_streams_throw {exit : Exit} (h : ∀ fault, exit ≠ .fault fault) :
    KeepsStreams console (throw exit : Eval α) :=
  fun _ hremains => ⟨hremains, fun heq => (h _ (Except.error.inj heq)).elim⟩

theorem KeepsStreams.bind {part : Eval α} {next : α → Eval β} (hpart : KeepsStreams console part)
    (hnext : ∀ result, KeepsStreams console (next result)) :
    KeepsStreams console (part >>= next) := by
  intro state hremains
  have hfirst := hpart state hremains
  rw [run_bind]
  generalize part state = outcome at hfirst
  rcases outcome with ⟨exit | result, after⟩
  · exact hfirst.pass
  · exact hnext result after hfirst.remains

theorem KeepsStreams.aside {source : Eval α} {run : α → Eval β}
    (hsource : KeepsStreams console source) (hrun : ∀ result, KeepsStreams console (run result)) :
    KeepsStreams console (aside source run) := by
  intro state hremains
  have hfirst := hsource state hremains
  unfold Eval.aside
  generalize source state = outcome at hfirst
  rcases outcome with ⟨exit | result, middle⟩
  · exact hfirst.pass
  · have hsecond := hrun result { middle with scope := state.scope } hfirst.remains
    exact ⟨hsecond.remains, hsecond.breaks⟩

/-- What looks at the state. -/
theorem keeps_streams_get {next : EvalState → Eval β}
    (h : ∀ state, KeepsStreams console (next state)) : KeepsStreams console (get >>= next) :=
  fun state => h state state

/-- An operation on the heap that does not meet the fault of a stream. -/
theorem keeps_streams_perform {action : Action α}
    (h : ∀ heap fault, action heap ≠ .error (.fault (.stream fault))) :
    KeepsStreams console (perform action) := by
  intro state hremains
  unfold perform
  split
  · exact ⟨hremains, nofun⟩
  · rename_i fault hrun
    refine ⟨hremains, fun {stream} heq => ?_⟩
    cases heq
    exact (h _ _ hrun).elim
  · exact ⟨hremains, nofun⟩

/-- An operation that does no more than make objects and raise errors. -/
theorem keeps_streams_quiet {action : Action α} (h : action.Within .none) :
    KeepsStreams console (perform action) :=
  keeps_streams_perform fun _ _ => h.no_fault rfl id

theorem keeps_streams_raise (kind : ErrorKind) (message : String) :
    KeepsStreams console (raise kind message : Eval α) :=
  keeps_streams_quiet (Action.within_raise kind message)

theorem keeps_streams_check_writable (name : String) :
    KeepsStreams console (checkWritable name) := by
  have hconstant : KeepsStreams console (do
      if (← scope).isConstant name then
        raise .typeError s!"cannot reassign constant '{name}'" : Eval Unit) := by
    refine keeps_streams_get fun state => ?_
    split
    · exact keeps_streams_raise _ _
    · exact keeps_streams_pure ()
  unfold checkWritable
  dsimp only
  split
  · exact (keeps_streams_raise _ _).bind fun _ => hconstant
  · exact hconstant

/-- The console is used, which fails as it may. -/
theorem keeps_streams_on_console {use : Console → Except StreamFault α × Console}
    (hremains : ∀ console : Console, console.Remains (use console).2)
    (hfails : ∀ (console : Console) fault, (use console).1 = .error fault →
      (∃ n, console.readsFail n = some fault) ∨ ∃ n text, console.writesFail n text = some fault) :
    KeepsStreams console (onConsole use) := by
  intro state hstate
  have hused := hstate.trans (hremains state.world.console)
  have hbreaks := hfails state.world.console
  rw [hstate.reads, hstate.writes] at hbreaks
  rw [on_console_run]
  generalize use state.world.console = outcome at hused hbreaks
  rcases outcome with ⟨fault | result, console⟩
  · cases fault with
    | system reason => exact keeps_streams_raise .osError reason _ hused
    | closed | undecodable | unencodable =>
        refine ⟨hused, fun heq => ?_⟩
        cases heq
        exact ⟨hbreaks _ rfl, nofun⟩
  · exact ⟨hused, nofun⟩

theorem keeps_streams_write (text : String) : KeepsStreams console (write text) :=
  keeps_streams_on_console (Console.Remains.write · text) fun _ _ hfault =>
    .inr ⟨_, _, Console.write_fails hfault⟩

theorem keeps_streams_read_line : KeepsStreams console readLine :=
  keeps_streams_on_console Console.Remains.read_line fun _ _ hfault =>
    .inl ⟨_, Console.read_line_fails hfault⟩

/-! ## All rules -/

section Rules

variable {ev : Evaluator} (hev : ∀ expr, KeepsStreams console (ev expr))
include hev

theorem keeps_streams_body (exprs : List Expr) : KeepsStreams console (body ev exprs) := by
  suffices hstatements : ∀ last, KeepsStreams console (statements ev exprs last) from
    hstatements .null
  induction exprs with
  | nil => exact keeps_streams_pure
  | cons expr exprs ih => exact fun _ => (hev expr).bind ih

omit hev in
/-- At the end of a call or program, a jump is an error at most. -/
theorem Streams.at_boundary {run : Eval Value} (h : Streams console (run state)) :
    Streams console (atBoundary run state) := by
  unfold atBoundary
  generalize run state = outcome at h
  obtain ⟨result, after⟩ := outcome
  cases result with
  | ok value => exact h
  | error exit =>
      cases exit with
      | jump jump =>
          cases jump with
          | returning value => exact ⟨h.remains, nofun⟩
          | breaking | continuing => exact keeps_streams_raise _ _ after h.remains
      | thrown | fault | outOfFuel => exact h

theorem keeps_streams_call (id : FunctionId) (items : List Value) (receiver : Option InstanceId) :
    KeepsStreams console (callFunction ev id items receiver) := by
  intro state hremains
  rw [call_function_run]
  dsimp only
  split
  · exact keeps_streams_raise _ _ state hremains
  · split
    · exact keeps_streams_raise _ _ state hremains
    · have hbody := keeps_streams_body hev (state.world.heap.function id).body
        (state.entering (state.frame id receiver items)) hremains
      exact .at_boundary ⟨hbody.remains, hbody.breaks⟩

theorem keeps_streams_round (exprs : List Expr) : KeepsStreams console (loopRound ev exprs) := by
  intro state hremains
  have hbody := keeps_streams_body hev exprs state hremains
  rw [loop_round_run]
  generalize body ev exprs state = outcome at hbody
  obtain ⟨result, after⟩ := outcome
  cases result with
  | ok value => exact ⟨hbody.remains, nofun⟩
  | error exit =>
      cases exit with
      | jump jump =>
          cases jump with
          | breaking | continuing | returning => exact ⟨hbody.remains, nofun⟩
      | fault fault =>
          refine ⟨hbody.remains, fun heq => ?_⟩
          cases heq
          exact hbody.breaks rfl
      | thrown | outOfFuel => exact ⟨hbody.remains, nofun⟩

/-- Every rule that is put together from its ingredients. -/
theorem Composed.keeps_streams {ingredients : Ingredients} {rule : Evaluator → Eval α}
    (h : Composed ingredients rule) (hexits : ∀ fault, ¬ingredients.exits (.fault fault)) :
    KeepsStreams console (rule ev) := by
  induction h with
  | pure result => exact keeps_streams_pure result
  | throw hexit => exact keeps_streams_throw fun fault heq => hexits fault (heq ▸ hexit)
  | look _ _ ihnext => exact keeps_streams_get ihnext
  | bind _ _ ihfirst ihnext => exact ihfirst.bind ihnext
  | ask => exact hev _
  | perform haction => exact keeps_streams_quiet haction
  | apply application heffect =>
      refine keeps_streams_perform fun heap fault hrun => ?_
      exact application.no_stream (heffect ▸ Action.effect_eq_error_iff.mpr hrun)
  | newInstance | setField | newFunction | newClass =>
      exact keeps_streams_perform fun _ _ => nofun
  | bindName | bindConstant =>
      exact (keeps_streams_check_writable _).bind fun _ => keeps_streams_get fun _ =>
        fun _ hremains => ⟨hremains, nofun⟩
  | record | nameFunction | nameClass => exact fun _ hremains => ⟨hremains, nofun⟩
  | write text => exact keeps_streams_write text
  | readLine => exact keeps_streams_read_line
  | call id items receiver => exact keeps_streams_call hev id items receiver
  | round => exact keeps_streams_round hev _
  | aside _ _ ihsource ihrun => exact .aside ihsource ihrun

theorem keeps_streams_handle (caught : ErrorId) (binder : Option String) (handler : List Expr) :
    KeepsStreams console (handle ev caught binder handler) := by
  have hrun : Composed (Expr.tryCatch [] binder handler).ingredients fun ev =>
      runHandler ev caught binder handler :=
    composed_run_handler caught binder fun _ h => h
  intro state hremains
  have hhandler := hrun.keeps_streams hev (fun _ => id) state hremains
  rw [handle_linked]
  generalize runHandler ev caught binder handler state = outcome at hhandler
  obtain ⟨result, after⟩ := outcome
  have hlinked (inner : ErrorId) : KeepsStreams console (throwLinked caught inner) := by
    refine keeps_streams_get fun state => ?_
    dsimp only
    split
    · have hset (change : ErrorObject → ErrorObject) :
          KeepsStreams console (perform (Action.setError inner change)) :=
        keeps_streams_perform fun _ _ => nofun
      exact (hset _).bind fun _ => keeps_streams_throw nofun
    · exact keeps_streams_throw nofun
  cases result with
  | ok value => exact hhandler
  | error exit =>
      cases exit with
      | thrown inner => exact hlinked inner after hhandler.remains
      | jump | fault | outOfFuel => exact hhandler

/-- The rule of every construct. -/
theorem keeps_streams_step (fuel : Nat) (expr : Expr) :
    KeepsStreams console (step ev fuel expr) := by
  by_cases hexpr : HandlesErrors expr
  · cases expr with
    | tryCatch exprs binder handler =>
        intro state hremains
        have hbody := keeps_streams_body hev exprs state hremains
        have hhandle (error : ErrorId) := keeps_streams_handle hev error binder handler
        have hnew : KeepsStreams console
            (perform (Action.newError .recursionError [recursionMessage])) :=
          keeps_streams_quiet (Action.within_new_error _ _)
        show Streams console (tryCatch ev exprs binder handler state)
        rw [try_catch_run]
        generalize body ev exprs state = outcome at hbody
        obtain ⟨result, after⟩ := outcome
        cases result with
        | ok value => exact hbody
        | error exit =>
            cases exit with
            | thrown error => exact hhandle error after hbody.remains
            | fault fault =>
                cases fault with
                | recursion => exact hnew.bind hhandle after hbody.remains
                | _ => exact hbody
            | jump | outOfFuel => exact hbody
    | _ => exact hexpr.elim
  · refine (composed_step hexpr fuel).keeps_streams hev fun fault hexit => ?_
    cases expr with
    | «throwError» =>
        obtain ⟨error, heq⟩ := hexit
        cases heq
    | returnValue =>
        obtain ⟨value, heq⟩ := hexit
        cases heq
    | breakLoop | continueLoop | whileLoop => cases hexit
    | _ => exact hexit.elim

end Rules

/-- No evaluation ends with the fault of a stream, unless the console breaks with it. -/
theorem evaluate_streams (console : Console) (fuel : Nat) (expr : Expr) :
    KeepsStreams console (evaluate fuel expr) := by
  induction fuel generalizing expr with
  | zero => exact keeps_streams_throw nofun
  | succ fuel ih => exact keeps_streams_step ih fuel expr

end Eval

end Script
