import Script.Proofs.Eval.Reachable

/-!
# The order of the states in a run

`EvalState.Precedes` says that a state can come before another: evaluation leads from the one to the
other, through the calls and comprehensions that begin and end on the way, and through the programs
of an interpreter. The states of a run are a line in this order. Each of them comes after the state
that the run begins in and before the one that it ends in (`Eval.Visits.between`), and of any two of
them one comes before the other (`Eval.Visits.comparable`).

`Eval.Timely` is what is shown of each rule for that: the parts that it asks for are evaluated one
after the other.
-/

namespace Script

namespace EvalState

/-- The first state can come before the second, in the same program or in an earlier one. -/
inductive Precedes : EvalState → EvalState → Prop where
  | becomes {state later : EvalState} (h : state.Becomes later) : Precedes state later
  /-- A call begins. -/
  | enters {state entered : EvalState} (h : state.Enters entered) : Precedes state entered
  /-- A call has ended. -/
  | returns (state left : EvalState) : Precedes left (state.returning left)
  /-- Another scope is taken up, when a comprehension begins or has ended. -/
  | copies (state : EvalState) (scope : Scope) : Precedes state { state with scope := scope }
  /-- A program begins. -/
  | starts (interpreter : Interpreter) : Precedes interpreter.state interpreter.started
  | trans {first second third : EvalState} :
      Precedes first second → Precedes second third → Precedes first third

theorem Precedes.refl (state : EvalState) : state.Precedes state :=
  .becomes (.refl state)

end EvalState

namespace Eval

variable {α β : Type} {ev : Evaluator} {expr part part' : Expr}
  {state middle inner inner' : EvalState}

/-- A run asks what a part comes to in some state: if that were something else, so would be the
outcome. -/
def Asks (ev : Evaluator) (run : Evaluator → Except Exit α × EvalState) (part : Expr)
    (inner : EvalState) : Prop :=
  ∃ other : Evaluator,
    (∀ asked current, asked ≠ part ∨ current ≠ inner →
      other asked current = ev asked current) ∧
    run other ≠ run ev

/-- A run that asks for one part only asks for that. -/
theorem Asks.eq (h : Asks ev (fun ev => ev expr state) part inner) :
    part = expr ∧ inner = state := by
  obtain ⟨other, hother, hdiffers⟩ := h
  by_contra hne
  refine hdiffers (hother expr state (not_and_or.mp ?_))
  rintro ⟨rfl, rfl⟩
  exact hne ⟨rfl, rfl⟩

/-- What is asked for in two runs, one after the other, is asked for in one of them. -/
theorem Asks.first_or_finish {first : Evaluator → Except Exit α × EvalState}
    {finish : Evaluator → Except Exit α × EvalState → Except Exit β × EvalState}
    (h : Asks ev (fun ev => finish ev (first ev)) part inner) :
    Asks ev first part inner ∨ Asks ev (fun other => finish other (first ev)) part inner := by
  obtain ⟨other, hother, hdiffers⟩ := h
  by_cases hsame : first other = first ev
  · refine .inr ⟨other, hother, fun heq => hdiffers ?_⟩
    exact (congrArg (finish other) hsame).trans heq
  · exact .inl ⟨other, hother, hsame⟩

/-- The parts that a run asks for are evaluated one after the other, between the state in which it
begins and the one in which it ends. -/
structure Timely (ev : Evaluator) (state : EvalState)
    (run : Evaluator → Except Exit α × EvalState) : Prop where
  runs : state.Precedes (run ev).2
  between {part : Expr} {inner : EvalState} (h : Asks ev run part inner) :
    state.Precedes inner ∧ (ev part inner).2.Precedes (run ev).2
  order {part part' : Expr} {inner inner' : EvalState} (h : Asks ev run part inner)
    (h' : Asks ev run part' inner') :
    (part = part' ∧ inner = inner') ∨ (ev part inner).2.Precedes inner' ∨
      (ev part' inner').2.Precedes inner

namespace Timely

/-- A run that asks for nothing. -/
theorem const {outcome : Except Exit α × EvalState} (h : state.Precedes outcome.2) :
    Timely ev state fun _ => outcome where
  runs := h
  between hasks := by
    obtain ⟨other, -, hdiffers⟩ := hasks
    exact (hdiffers rfl).elim
  order hasks := by
    obtain ⟨other, -, hdiffers⟩ := hasks
    exact (hdiffers rfl).elim

/-- A run that asks for one part. -/
theorem ask (h : state.Becomes (ev expr state).2) : Timely ev state fun ev => ev expr state where
  runs := .becomes h
  between hasks := by
    obtain ⟨rfl, rfl⟩ := hasks.eq
    exact ⟨.refl _, .refl _⟩
  order hasks hasks' := by
    obtain ⟨rfl, rfl⟩ := hasks.eq
    obtain ⟨rfl, rfl⟩ := hasks'.eq
    exact .inl ⟨rfl, rfl⟩

/-- A run that begins later. -/
theorem after {run : Evaluator → Except Exit α × EvalState} (h : Timely ev middle run)
    (hbefore : state.Precedes middle) : Timely ev state run where
  runs := hbefore.trans h.runs
  between hasks := ⟨hbefore.trans (h.between hasks).1, (h.between hasks).2⟩
  order := h.order

/-- A run that goes on after another. -/
theorem andThen {first : Evaluator → Except Exit α × EvalState}
    (hfirst : Timely ev state first)
    (finish : Evaluator → Except Exit α × EvalState → Except Exit β × EvalState)
    (hfinish : Timely ev (first ev).2 fun other => finish other (first ev)) :
    Timely ev state fun ev => finish ev (first ev) where
  runs := hfirst.runs.trans hfinish.runs
  between hasks := by
    obtain hasks | hasks := hasks.first_or_finish
    · obtain ⟨hbegins, hends⟩ := hfirst.between hasks
      exact ⟨hbegins, hends.trans hfinish.runs⟩
    · obtain ⟨hbegins, hends⟩ := hfinish.between hasks
      exact ⟨hfirst.runs.trans hbegins, hends⟩
  order hasks hasks' := by
    obtain hasks | hasks := hasks.first_or_finish <;>
      obtain hasks' | hasks' := hasks'.first_or_finish
    · exact hfirst.order hasks hasks'
    · exact .inr (.inl ((hfirst.between hasks).2.trans (hfinish.between hasks').1))
    · exact .inr (.inr ((hfirst.between hasks').2.trans (hfinish.between hasks).1))
    · exact hfinish.order hasks hasks'

/-- A run that only looks at how another has ended. -/
theorem map {first : Evaluator → Except Exit α × EvalState}
    (hfirst : Timely ev state first)
    (finish : Except Exit α × EvalState → Except Exit β × EvalState)
    (hends : ∀ outcome : Except Exit α × EvalState, outcome.2.Precedes (finish outcome).2) :
    Timely ev state fun ev => finish (first ev) :=
  hfirst.andThen (fun _ => finish) (.const (hends _))

theorem bind {first : Evaluator → Eval α} {next : α → Evaluator → Eval β}
    (hfirst : Timely ev state fun ev => first ev state)
    (hnext : ∀ result after, Timely ev after fun ev => next result ev after) :
    Timely ev state fun ev => (first ev >>= fun result => next result ev) state := by
  simp only [run_bind]
  refine hfirst.andThen (fun ev outcome => match outcome with
    | (.ok result, after) => next result ev after
    | (.error exit, after) => (.error exit, after)) ?_
  rcases first ev state with ⟨exit | result, after⟩
  · exact .const (.refl _)
  · exact hnext result after

theorem aside {source : Evaluator → Eval α} {run : α → Evaluator → Eval β}
    (hsource : Timely ev state fun ev => source ev state)
    (hrun : ∀ result after, Timely ev after fun ev => run result ev after) :
    Timely ev state fun ev => aside (source ev) (fun result => run result ev) state := by
  refine hsource.andThen (fun ev outcome => match outcome with
    | (.error exit, middle) => (.error exit, middle)
    | (.ok result, middle) =>
      ((run result ev { middle with scope := state.scope }).1,
        { (run result ev { middle with scope := state.scope }).2 with scope := middle.scope })) ?_
  rcases source ev state with ⟨exit | result, middle⟩
  · exact .const (.refl _)
  · have hcopy : middle.Precedes { middle with scope := state.scope } := .copies middle _
    exact ((hrun result { middle with scope := state.scope }).after hcopy).map
      (fun outcome => (outcome.1, { outcome.2 with scope := middle.scope }))
      fun outcome => .copies outcome.2 middle.scope

end Timely

variable (hev : ∀ expr (state : EvalState), state.Becomes (ev expr state).2)
include hev

theorem statements_timely (exprs : List Expr) (last : Value) (state : EvalState) :
    Timely ev state fun ev => statements ev exprs last state := by
  induction exprs generalizing last state with
  | nil => exact .const (.refl state)
  | cons expr exprs ih => exact .bind (.ask (hev expr state)) ih

theorem call_function_timely (id : FunctionId) (items : List Value)
    (receiver : Option InstanceId) (state : EvalState) :
    Timely ev state fun ev => callFunction ev id items receiver state := by
  have hraise (kind : ErrorKind) (message : String) :
      Timely ev state fun _ => (raise kind message : Eval Value) state :=
    .const (.becomes (agree_raise kind message).becomes)
  simp only [call_function_run]
  split
  · exact hraise _ _
  · rename_i hcount
    split
    · exact hraise _ _
    · rename_i hdepth
      have henters : state.Enters (state.entering (state.frame id receiver items)) :=
        .call id receiver items (by omega) (by omega)
      have hbody := statements_timely hev (state.world.heap.function id).body .null
        (state.entering (state.frame id receiver items))
      refine (hbody.after (.enters henters)).map (fun outcome =>
        atBoundary (fun _ => (outcome.1, state.returning outcome.2)) state) fun outcome => ?_
      let left := state.returning outcome.2
      have hends : left.Becomes (atBoundary (fun _ => (outcome.1, left)) left).2 :=
        at_boundary_becomes (.refl left)
      exact (EvalState.Precedes.returns state outcome.2).trans (.becomes hends)

theorem loop_round_timely (exprs : List Expr) (state : EvalState) :
    Timely ev state fun ev => loopRound ev exprs state := by
  simp only [loop_round_run]
  refine (statements_timely hev exprs .null state).map roundOf ?_
  rintro ⟨result, after⟩
  unfold roundOf
  split <;> rename_i hend <;> cases hend <;> exact .refl after

/-- Every rule that is put together from its ingredients evaluates them one after the other. -/
theorem Composed.timely {ingredients : Ingredients} {rule : Evaluator → Eval α}
    (h : Composed ingredients rule) (state : EvalState) :
    Timely ev state fun ev => rule ev state := by
  have hbecomes {γ : Type} {rule : Evaluator → Eval γ} (h : Composed ingredients rule)
      (state : EvalState) : state.Becomes (rule ev state).2 :=
    (h.agree fun expr state _ => ⟨rfl, hev expr state⟩).becomes
  have hruns := hbecomes h
  induction h generalizing state with
  | look _ hnext ihnext =>
      exact .bind (.const (.becomes (.refl state))) fun current after =>
        ihnext current after (hbecomes (hnext current))
  | bind hfirst hnext ihfirst ihnext =>
      exact .bind (ihfirst state (hbecomes hfirst)) fun result after =>
        ihnext result after (hbecomes (hnext result))
  | ask => exact .ask (hev _ state)
  | call id items receiver => exact call_function_timely hev id items receiver state
  | round => exact loop_round_timely hev _ state
  | aside hsource hrun ihsource ihrun =>
      exact .aside (ihsource state (hbecomes hsource)) fun result after =>
        ihrun result after (hbecomes (hrun result))
  | _ => exact .const (.becomes (hruns state))

theorem handle_timely (caught : ErrorId) (binder : Option String) (handler : List Expr)
    (state : EvalState) : Timely ev state fun ev => handle ev caught binder handler state := by
  have hrun : Composed (Expr.tryCatch [] binder handler).ingredients fun ev =>
      runHandler ev caught binder handler :=
    composed_run_handler caught binder fun _ h => h
  simp only [handle_linked]
  refine (hrun.timely hev state).map (linkThrown caught) fun outcome => ?_
  unfold linkThrown
  split
  · exact .becomes (agree_throw_linked caught _).becomes
  · exact .refl _

theorem try_catch_timely (exprs : List Expr) (binder : Option String) (handler : List Expr)
    (state : EvalState) : Timely ev state fun ev => tryCatch ev exprs binder handler state := by
  have hnew : (Action.newError .recursionError [recursionMessage]).Within .none :=
    Action.within_new_error _ _
  simp only [try_catch_run]
  refine (statements_timely hev exprs .null state).andThen
    (fun ev => handleCaught ev binder handler) ?_
  rcases statements ev exprs .null state with ⟨result, after⟩
  unfold handleCaught
  split
  · rename_i hthrown
    cases hthrown
    exact handle_timely hev _ binder handler after
  · rename_i hfault
    cases hfault
    exact .bind (.const (.becomes (agree_perform hnew).becomes)) fun error =>
      handle_timely hev error binder handler
  · exact .const (.refl after)

/-- Every rule evaluates the parts one after the other. -/
theorem step_timely (fuel : Nat) (expr : Expr) (state : EvalState) :
    Timely ev state fun ev => step ev fuel expr state := by
  by_cases hexpr : HandlesErrors expr
  · cases expr with
    | tryCatch exprs binder handler => exact try_catch_timely hev exprs binder handler state
    | _ => exact hexpr.elim
  · exact (composed_step hexpr fuel).timely hev state

omit hev

variable {fuel : Nat}

/-- A part is evaluated after the evaluation has begun and before it ends. -/
theorem Consults.between (h : Consults fuel expr state part inner) :
    state.Precedes inner ∧
      (evaluate fuel part inner).2.Precedes (evaluate (fuel + 1) expr state).2 :=
  (step_timely (evaluate_becomes fuel) fuel expr state).between h

/-- Of two parts, one is evaluated before the other. -/
theorem Consults.order (h : Consults fuel expr state part inner)
    (h' : Consults fuel expr state part' inner') :
    (part = part' ∧ inner = inner') ∨ (evaluate fuel part inner).2.Precedes inner' ∨
      (evaluate fuel part' inner').2.Precedes inner :=
  (step_timely (evaluate_becomes fuel) fuel expr state).order h h'

/-- All that takes place in the course of an evaluation does so after it has begun and before it
ends. -/
theorem Visits.between (h : Visits fuel expr state inner) :
    state.Precedes inner ∧ inner.Precedes (evaluate fuel expr state).2 := by
  induction h with
  | here fuel expr state => exact ⟨.refl state, .becomes (evaluate_becomes fuel expr state)⟩
  | inside hconsults _ ih =>
      exact ⟨hconsults.between.1.trans ih.1, ih.2.trans hconsults.between.2⟩

/-- Of two states in the course of an evaluation, one comes before the other. -/
theorem Visits.comparable (h : Visits fuel expr state inner)
    (h' : Visits fuel expr state inner') : inner.Precedes inner' ∨ inner'.Precedes inner := by
  induction h with
  | here => exact .inl h'.between.1
  | inside hconsults hvisits ih =>
      cases h' with
      | here => exact .inr (hconsults.between.1.trans hvisits.between.1)
      | inside hconsults' hvisits' =>
          obtain ⟨rfl, rfl⟩ | hbefore | hafter := hconsults.order hconsults'
          · exact ih hvisits'
          · exact .inl ((hvisits.between.2.trans hbefore).trans hvisits'.between.1)
          · exact .inr ((hvisits'.between.2.trans hafter).trans hvisits.between.1)

end Eval

namespace Interpreter

/-- The state that the statements of a program leave comes before the one after the program, in
which faults have been made errors. -/
theorem block_becomes (interpreter : Interpreter) (fuel : Nat) (program : Program) :
    (Eval.evaluate (fuel + 1) (.block program) interpreter.started).2.Becomes
      (interpreter.runProgram fuel program).2.state := by
  let outcome := Eval.evaluate (fuel + 1) (.block program) interpreter.started
  have hends : outcome.2.Becomes
      (raiseFaults (Eval.atBoundary fun _ => outcome) outcome.2).2 :=
    raise_faults_becomes (Eval.at_boundary_becomes (.refl outcome.2))
  rw [state_run_program]
  exact hends

/-- What takes place in the course of a program does so after the state before the program and
before the state after it. -/
theorem between_run_program {interpreter : Interpreter} {fuel : Nat} {program : Program}
    {inner : EvalState}
    (h : Eval.Visits (fuel + 1) (.block program) interpreter.started inner) :
    interpreter.state.Precedes inner ∧
      inner.Precedes (interpreter.runProgram fuel program).2.state :=
  ⟨.trans (.starts interpreter) h.between.1,
    h.between.2.trans (.becomes (interpreter.block_becomes fuel program))⟩

end Interpreter

end Script
