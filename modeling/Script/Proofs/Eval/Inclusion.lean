import Script.Proofs.Eval.Reachable

/-!
# Evaluations inside evaluations

`Eval.Includes` says which evaluations take place in the course of another: those of the parts that
it consults, those that these consult in turn, and so on. Which parts a rule consults is found out
by stopping it: an evaluation of the parts that runs out of fuel at some of the questions it is
asked, and marks the heap, gives what the rule gives without stops, or else the rule has come to one
of these questions (`Eval.Stoppable`). All rules can be stopped in this way, so
`Eval.exists_consulted` finds a question that has made a difference among any set of questions.
-/

namespace Script.Eval

variable {α β : Type}

/-- The evaluations that take place in the course of an evaluation. -/
inductive Includes : Nat → Expr → EvalState → Nat → Expr → EvalState → Prop where
  | here (fuel : Nat) (expr : Expr) (state : EvalState) :
      Includes fuel expr state fuel expr state
  | inside {fuel rest : Nat} {expr part last : Expr} {state inner final : EvalState} :
      Consults fuel expr state part inner → Includes fuel part inner rest last final →
        Includes (fuel + 1) expr state rest last final

open Classical in
/-- The evaluation that runs out of fuel at some questions, and then leaves a marked heap. -/
noncomputable def stopped (ev : Evaluator) (questions : Expr → EvalState → Prop) (mark : Heap) :
    Evaluator :=
  fun expr state =>
    if questions expr state then (.error .outOfFuel, state.withHeap mark) else ev expr state

/-- An evaluation has ended at a stop. -/
structure AtStop (mark : Heap) (outcome : Except Exit α × EvalState) : Prop where
  exit : outcome.1 = .error .outOfFuel
  heap : outcome.2.world.heap = mark

/-- With stops, a run ends as without them, or it ends at a stop; then a stop at one of the
questions suffices. -/
def Stoppable (ev : Evaluator) (mark : Heap) (run : Evaluator → Except Exit α × EvalState) : Prop :=
  ∀ questions,
    run (stopped ev questions mark) = run ev ∨
      AtStop mark (run (stopped ev questions mark)) ∧
        ∃ expr inner, questions expr inner ∧
          AtStop mark (run (stopped ev (fun asked state => asked = expr ∧ state = inner) mark))

variable {ev : Evaluator} {mark : Heap}

namespace Stoppable

/-- A run that asks no questions. -/
theorem const (outcome : Except Exit α × EvalState) : Stoppable ev mark fun _ => outcome :=
  fun _ => .inl rfl

/-- A run that asks one question. -/
theorem ask (expr : Expr) (state : EvalState) : Stoppable ev mark fun ev => ev expr state := by
  intro questions
  have hstop {asked : Expr → EvalState → Prop} (h : asked expr state) :
      AtStop mark (stopped ev asked mark expr state) := by
    unfold stopped
    rw [if_pos h]
    exact ⟨rfl, rfl⟩
  by_cases h : questions expr state
  · exact .inr ⟨hstop h, expr, state, h, hstop ⟨rfl, rfl⟩⟩
  · exact .inl (if_neg h)

/-- A run that goes on after another. It must not go on after a stop. -/
theorem andThen {first : Evaluator → Except Exit α × EvalState}
    (hfirst : Stoppable ev mark first)
    (finish : Evaluator → Except Exit α × EvalState → Except Exit β × EvalState)
    (hfinish : ∀ outcome, Stoppable ev mark fun ev => finish ev outcome)
    (hstop : ∀ ev outcome, AtStop mark outcome → AtStop mark (finish ev outcome)) :
    Stoppable ev mark fun ev => finish ev (first ev) := by
  intro questions
  obtain heq | ⟨hat, expr, inner, hasked, halone⟩ := hfirst questions
  · obtain heq' | ⟨hat, expr, inner, hasked, halone⟩ := hfinish (first ev) questions
    · exact .inl ((congrArg (finish _) heq).trans heq')
    · refine .inr ⟨by dsimp only; rwa [heq], expr, inner, hasked, ?_⟩
      -- The one question may have been asked before the run went on.
      obtain heq₁ | ⟨hat₁, -⟩ := hfirst fun asked state => asked = expr ∧ state = inner
      · dsimp only
        rwa [heq₁]
      · exact hstop _ _ hat₁
  · exact .inr ⟨hstop _ _ hat, expr, inner, hasked, hstop _ _ halone⟩

/-- A run that only looks at how another has ended. -/
theorem map {first : Evaluator → Except Exit α × EvalState}
    (hfirst : Stoppable ev mark first)
    (finish : Except Exit α × EvalState → Except Exit β × EvalState)
    (hstop : ∀ outcome, AtStop mark outcome → AtStop mark (finish outcome)) :
    Stoppable ev mark fun ev => finish (first ev) :=
  hfirst.andThen (fun _ => finish) (fun outcome => const (finish outcome)) fun _ => hstop

theorem bind {first : Evaluator → Eval α} {next : α → Evaluator → Eval β} {state : EvalState}
    (hfirst : Stoppable ev mark fun ev => first ev state)
    (hnext : ∀ result after, Stoppable ev mark fun ev => next result ev after) :
    Stoppable ev mark fun ev => (first ev >>= fun result => next result ev) state := by
  simp only [run_bind]
  refine hfirst.andThen (fun ev outcome => match outcome with
    | (.ok result, after) => next result ev after
    | (.error exit, after) => (.error exit, after)) ?_ ?_
  · rintro ⟨exit | result, after⟩
    · exact const _
    · exact hnext result after
  · rintro ev ⟨exit | result, after⟩ ⟨hexit, hheap⟩
    · cases hexit
      exact ⟨rfl, hheap⟩
    · cases hexit

theorem statements (exprs : List Expr) (last : Value) (state : EvalState) :
    Stoppable ev mark fun ev => statements ev exprs last state := by
  induction exprs generalizing last state with
  | nil => exact const _
  | cons expr exprs ih => exact .bind (.ask expr state) fun value after => ih value after

theorem body (exprs : List Expr) (state : EvalState) :
    Stoppable ev mark fun ev => body ev exprs state :=
  .statements exprs .null state

theorem call (id : FunctionId) (items : List Value) (receiver : Option InstanceId)
    (state : EvalState) : Stoppable ev mark fun ev => callFunction ev id items receiver state := by
  simp only [call_function_run]
  split
  · exact const _
  · split
    · exact const _
    · refine (body (state.world.heap.function id).body _).map
        (fun outcome => atBoundary (fun _ => (outcome.1, state.returning outcome.2)) state)
        ?_
      rintro ⟨result, after⟩ ⟨hexit, hheap⟩
      cases hexit
      exact ⟨rfl, hheap⟩

theorem round (exprs : List Expr) (state : EvalState) :
    Stoppable ev mark fun ev => loopRound ev exprs state := by
  simp only [loop_round_run]
  refine (body exprs state).map roundOf ?_
  rintro ⟨result, after⟩ ⟨hexit, hheap⟩
  cases hexit
  exact ⟨rfl, hheap⟩

theorem aside {source : Evaluator → Eval α} {run : α → Evaluator → Eval β} {state : EvalState}
    (hsource : Stoppable ev mark fun ev => source ev state)
    (hrun : ∀ result after, Stoppable ev mark fun ev => run result ev after) :
    Stoppable ev mark fun ev => aside (source ev) (fun result => run result ev) state := by
  refine hsource.andThen (fun ev outcome => match outcome with
    | (.error exit, middle) => (.error exit, middle)
    | (.ok result, middle) =>
      ((run result ev { middle with scope := state.scope }).1,
        { (run result ev { middle with scope := state.scope }).2 with scope := middle.scope }))
    ?_ ?_
  · rintro ⟨exit | result, middle⟩
    · exact const _
    · refine (hrun result { middle with scope := state.scope }).map
        (fun outcome => (outcome.1, { outcome.2 with scope := middle.scope })) ?_
      exact fun outcome hstop => ⟨hstop.exit, hstop.heap⟩
  · rintro ev ⟨exit | result, after⟩ ⟨hexit, hheap⟩
    · cases hexit
      exact ⟨rfl, hheap⟩
    · cases hexit

end Stoppable

/-- Every rule that is put together from its ingredients can be stopped. -/
theorem Composed.stoppable {ingredients : Ingredients} {rule : Evaluator → Eval α}
    (h : Composed ingredients rule) (state : EvalState) :
    Stoppable ev mark fun ev => rule ev state := by
  induction h generalizing state with
  | look _ _ ihnext => exact .bind (.const _) ihnext
  | bind _ _ ihfirst ihnext => exact .bind (ihfirst state) ihnext
  | ask => exact .ask _ state
  | call id items receiver => exact .call id items receiver state
  | round => exact .round _ state
  | aside _ _ ihsource ihrun => exact .aside (ihsource state) ihrun
  | _ => exact .const _

theorem run_handler_stoppable (caught : ErrorId) (binder : Option String) (handler : List Expr)
    (state : EvalState) :
    Stoppable ev mark fun ev => runHandler ev caught binder handler state := by
  have hrun : Composed (Expr.tryCatch [] binder handler).ingredients fun ev =>
      runHandler ev caught binder handler :=
    composed_run_handler caught binder fun _ h => h
  exact hrun.stoppable state

theorem handle_stoppable (caught : ErrorId) (binder : Option String) (handler : List Expr)
    (state : EvalState) : Stoppable ev mark fun ev => handle ev caught binder handler state := by
  simp only [handle_linked]
  refine (run_handler_stoppable caught binder handler state).map (linkThrown caught) ?_
  rintro ⟨result, after⟩ ⟨hexit, hheap⟩
  cases hexit
  exact ⟨rfl, hheap⟩

theorem try_catch_stoppable (exprs : List Expr) (binder : Option String) (handler : List Expr)
    (state : EvalState) : Stoppable ev mark fun ev => tryCatch ev exprs binder handler state := by
  simp only [try_catch_run]
  refine (Stoppable.body exprs state).andThen (fun ev => handleCaught ev binder handler) ?_ ?_
  · rintro ⟨result, after⟩
    unfold handleCaught
    split
    · exact handle_stoppable _ binder handler _
    · exact .bind (.const _) fun error after => handle_stoppable error binder handler after
    · exact .const _
  · rintro ev ⟨result, after⟩ ⟨hexit, hheap⟩
    cases hexit
    exact ⟨rfl, hheap⟩

/-- Every rule can be stopped. -/
theorem step_stoppable (fuel : Nat) (expr : Expr) (state : EvalState) :
    Stoppable ev mark fun ev => step ev fuel expr state := by
  by_cases hexpr : HandlesErrors expr
  · cases expr with
    | tryCatch exprs binder handler => exact try_catch_stoppable exprs binder handler state
    | _ => exact hexpr.elim
  · exact (composed_step hexpr fuel).stoppable state

/-- If stops at some questions change what a rule comes to, then the rule consults the part of one
of these questions. The mark has to be told apart from the heap that the rule leaves. -/
theorem exists_consulted {fuel : Nat} {expr : Expr} {state : EvalState}
    {questions : Expr → EvalState → Prop}
    (hmark : mark ≠ (step (evaluate fuel) fuel expr state).2.world.heap)
    (h : step (stopped (evaluate fuel) questions mark) fuel expr state ≠
      step (evaluate fuel) fuel expr state) :
    ∃ part inner, questions part inner ∧ Consults fuel expr state part inner := by
  have hstoppable : Stoppable (evaluate fuel) mark fun ev => step ev fuel expr state :=
    step_stoppable fuel expr state
  obtain heq | ⟨-, part, inner, hasked, hat⟩ := hstoppable questions
  · exact (h heq).elim
  · let alone (asked : Expr) (current : EvalState) : Prop := asked = part ∧ current = inner
    refine ⟨part, inner, hasked, stopped (evaluate fuel) alone mark, ?_, ?_⟩
    · intro asked current hother
      exact if_neg fun hsame => hother.elim (· hsame.1) (· hsame.2)
    · intro heq
      exact hmark (hat.heap.symm.trans (congrArg (·.2.world.heap) heq))

end Script.Eval
