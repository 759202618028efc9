import Script.Proofs.Eval.Calls
import Script.Proofs.Eval.Timeline

/-!
# The depth of calls

The world counts how deeply calls are nested: `inFrame` adds one before the body of a function is
run and takes it away again however the body ends. `Eval.Nested` says what is evaluated in the
course of an evaluation and how many calls are in progress by then, without looking at the counter:
a call is in progress while a statement of the body of its function is evaluated
(`Eval.RunsBody`). `Eval.depth_accounting` says that the counter is the number of these calls, that
it stays within its limit, and that every evaluation leaves it as it was.
-/

namespace Script

/-- A limit on the depth of calls is kept in all states that are reached. -/
theorem EvalState.Reaches.same_limit {start state : EvalState} (h : start.Reaches state) :
    state.world.maxDepth = start.world.maxDepth := by
  induction h with
  | here => rfl
  | later _ hbecomes ih => exact hbecomes.same_depth.2.trans ih
  | call _ henters ih =>
      cases henters
      exact ih
  | comprehension _ hbecomes ih => exact hbecomes.same_depth.2.trans ih

namespace Eval

/-- A call passes both checks, and in the course of the body of its function a statement is
evaluated in a state. -/
structure InBody (ev : Evaluator) (called : EvalState) (id : FunctionId) (items : List Value)
    (receiver : Option InstanceId) (part : Expr) (inner : EvalState) : Prop where
  count : items.length = ((called.world.heap.function id).openParameters receiver).length
  limit : called.world.depth < called.world.maxDepth
  statement : ∃ done rest value,
    (called.world.heap.function id).body = done ++ part :: rest ∧
      body ev done (called.entering (called.frame id receiver items)) = (.ok value, inner)

/-- The rule of a construct calls a function, in the body of which a statement is evaluated in a
state. -/
inductive RunsBody (ev : Evaluator) (expr : Expr) (state : EvalState) (part : Expr)
    (inner : EvalState) : Prop where
  | intro {id : FunctionId} {items : List Value} {receiver : Option InstanceId}
      {called : EvalState} (hcalls : Calls ev expr state id items receiver called)
      (hbody : InBody ev called id items receiver part inner)

/-- In the course of an evaluation another takes place, while so many calls are in progress that
had not begun before. -/
inductive Nested : Nat → Expr → EvalState → Nat → Nat → Expr → EvalState → Prop where
  | here (fuel : Nat) (expr : Expr) (state : EvalState) :
      Nested fuel expr state 0 fuel expr state
  /-- Within a part that is no statement of a function that is called. -/
  | part {fuel calls rest : Nat} {expr part last : Expr} {state inner final : EvalState} :
      Consults fuel expr state part inner → ¬ RunsBody (evaluate fuel) expr state part inner →
        Nested fuel part inner calls rest last final →
        Nested (fuel + 1) expr state calls rest last final
  /-- Within the body of a function that is called. -/
  | body {fuel calls rest : Nat} {expr part last : Expr} {state inner final : EvalState} :
      RunsBody (evaluate fuel) expr state part inner →
        Nested fuel part inner calls rest last final →
        Nested (fuel + 1) expr state (calls + 1) rest last final

/-- For all that is evaluated in the course of an evaluation there is a number of calls in
progress. -/
theorem Includes.exists_nested {fuel rest : Nat} {expr last : Expr} {state final : EvalState}
    (h : Includes fuel expr state rest last final) :
    ∃ calls, Nested fuel expr state calls rest last final := by
  induction h with
  | here fuel expr state => exact ⟨0, .here fuel expr state⟩
  | @inside fuel _ expr part _ state inner _ hconsults _ ih =>
      obtain ⟨calls, hnested⟩ := ih
      by_cases hbody : RunsBody (evaluate fuel) expr state part inner
      · exact ⟨calls + 1, .body hbody hnested⟩
      · exact ⟨calls, .part hconsults hbody hnested⟩

/-! ## At which depth a rule asks for its parts -/

variable {α β : Type} {ev : Evaluator} {depth : Nat} {expr part : Expr}
  {state middle inner called : EvalState} {id : FunctionId} {items : List Value}
  {receiver : Option InstanceId} {deeper : Expr → EvalState → Prop}

/-- What a run asks for, it asks for at a depth of calls, or it is among what may be asked for
elsewhere. -/
def AsksAt (ev : Evaluator) (depth : Nat) (deeper : Expr → EvalState → Prop)
    (run : Evaluator → Except Exit α × EvalState) : Prop :=
  ∀ part inner, Asks ev run part inner → inner.world.depth = depth ∨ deeper part inner

namespace AsksAt

theorem const (outcome : Except Exit α × EvalState) : AsksAt ev depth deeper fun _ => outcome := by
  rintro part inner ⟨other, -, hdiffers⟩
  exact (hdiffers rfl).elim

theorem ask (hdepth : state.world.depth = depth) :
    AsksAt ev depth deeper fun ev => ev expr state := by
  intro part inner hasks
  obtain ⟨rfl, rfl⟩ := hasks.eq
  exact .inl hdepth

/-- A run that goes on after another. -/
theorem andThen {first : Evaluator → Except Exit α × EvalState}
    (hfirst : AsksAt ev depth deeper first)
    (finish : Evaluator → Except Exit α × EvalState → Except Exit β × EvalState)
    (hfinish : AsksAt ev depth deeper fun other => finish other (first ev)) :
    AsksAt ev depth deeper fun ev => finish ev (first ev) :=
  fun part inner hasks => hasks.first_or_finish.elim (hfirst part inner) (hfinish part inner)

/-- A run that only looks at how another has ended. -/
theorem map {first : Evaluator → Except Exit α × EvalState}
    (hfirst : AsksAt ev depth deeper first)
    (finish : Except Exit α × EvalState → Except Exit β × EvalState) :
    AsksAt ev depth deeper fun ev => finish (first ev) :=
  hfirst.andThen (fun _ => finish) (const (finish (first ev)))

theorem bind {first : Evaluator → Eval α} {next : α → Evaluator → Eval β}
    (hfirst : AsksAt ev depth deeper fun ev => first ev state)
    (hnext : ∀ result after, first ev state = (.ok result, after) →
      AsksAt ev depth deeper fun ev => next result ev after) :
    AsksAt ev depth deeper fun ev => (first ev >>= fun result => next result ev) state := by
  simp only [run_bind]
  refine hfirst.andThen (fun ev outcome => match outcome with
    | (.ok result, after) => next result ev after
    | (.error exit, after) => (.error exit, after)) ?_
  rcases hrun : first ev state with ⟨exit | result, after⟩
  · exact const _
  · exact hnext result after hrun

theorem aside {source : Evaluator → Eval α} {run : α → Evaluator → Eval β}
    (hsource : AsksAt ev depth deeper fun ev => source ev state)
    (hrun : ∀ result after, source ev state = (.ok result, after) →
      AsksAt ev depth deeper fun ev => run result ev { after with scope := state.scope }) :
    AsksAt ev depth deeper fun ev =>
      aside (source ev) (fun result => run result ev) state := by
  refine hsource.andThen (fun ev outcome => match outcome with
    | (.error exit, middle) => (.error exit, middle)
    | (.ok result, middle) =>
      ((run result ev { middle with scope := state.scope }).1,
        { (run result ev { middle with scope := state.scope }).2 with scope := middle.scope })) ?_
  rcases hsource : source ev state with ⟨exit | result, middle⟩
  · exact const _
  · exact (hrun result middle hsource).map
      fun outcome => (outcome.1, { outcome.2 with scope := middle.scope })

end AsksAt

/-- A call asks for the statements of the body of its function only, and for these only if it passes
both checks. -/
theorem Asks.in_body
    (h : Asks ev (fun ev => callFunction ev id items receiver called) part inner) :
    InBody ev called id items receiver part inner := by
  by_contra hnone
  obtain ⟨other, hother, hdiffers⟩ := h
  refine hdiffers ?_
  show callFunction other id items receiver called = callFunction ev id items receiver called
  rw [call_function_run, call_function_run]
  dsimp only
  split
  · rfl
  rename_i hcount
  split
  · rfl
  rename_i hlimit
  have hbody : body other (called.world.heap.function id).body
        (called.entering (called.frame id receiver items)) =
      body ev (called.world.heap.function id).body
        (called.entering (called.frame id receiver items)) := by
    refine statements_congr fun done asked rest value current hexprs hdone => ?_
    refine hother asked current (not_and_or.mp ?_)
    rintro ⟨rfl, rfl⟩
    exact hnone ⟨not_not.mp hcount, by omega, done, rest, value, hexprs, hdone⟩
  unfold atBoundary
  rw [in_frame_run, in_frame_run, hbody]

section Rules

variable (hev : ∀ expr (state : EvalState), state.Becomes (ev expr state).2)
include hev

theorem statements_asks_at (exprs : List Expr) (last : Value)
    (hdepth : state.world.depth = depth) :
    AsksAt ev depth deeper fun ev => statements ev exprs last state := by
  induction exprs generalizing last state with
  | nil => exact .const _
  | cons expr exprs ih =>
      refine .bind (.ask hdepth) fun value after hvalue => ih value ?_
      have hbecomes := hev expr state
      rw [hvalue] at hbecomes
      exact hbecomes.same_depth.1.trans hdepth

/-- A rule changes the state only as evaluation may. -/
theorem Composed.becomes {ingredients : Ingredients} {rule : Evaluator → Eval α}
    (h : Composed ingredients rule) {result : α} {after : EvalState}
    (hrun : rule ev state = (.ok result, after)) : state.Becomes after := by
  have hbecomes : state.Becomes (rule ev state).2 :=
    (h.agree fun expr state _ => ⟨rfl, hev expr state⟩).becomes
  rw [hrun] at hbecomes
  exact hbecomes

/-- A rule ends at the depth at which it is run. -/
theorem Composed.same_depth {ingredients : Ingredients} {rule : Evaluator → Eval α}
    (h : Composed ingredients rule) {result : α} {after : EvalState}
    (hrun : rule ev state = (.ok result, after)) : after.world.depth = state.world.depth :=
  (h.becomes hev hrun).same_depth.1

/-- A rule that calls no functions asks for its parts at the depth at which it is run. -/
theorem Composed.asks_at {ingredients : Ingredients} {rule : Evaluator → Eval α}
    (h : Composed ingredients rule) (hcalls : ¬ ingredients.calls)
    (hdepth : state.world.depth = depth) :
    AsksAt ev depth deeper fun ev => rule ev state := by
  induction h generalizing state with
  | look _ _ ihnext =>
      refine .bind (.const _) fun current after hcurrent => ihnext current ?_
      cases hcurrent
      exact hdepth
  | bind hfirst _ ihfirst ihnext =>
      exact .bind (ihfirst hdepth) fun result after hrun =>
        ihnext result ((hfirst.same_depth hev hrun).trans hdepth)
  | ask => exact .ask hdepth
  | call _ _ _ h => exact (hcalls h).elim
  | round => exact (statements_asks_at hev _ .null hdepth).map roundOf
  | aside hsource _ ihsource ihrun =>
      refine .aside (ihsource hdepth) fun result after hafter => ihrun result ?_
      exact (hsource.same_depth hev hafter).trans hdepth
  | _ => exact .const _

theorem handle_asks_at (caught : ErrorId) (binder : Option String) (handler : List Expr)
    (hdepth : state.world.depth = depth) :
    AsksAt ev depth deeper fun ev => handle ev caught binder handler state := by
  have hrun : Composed (Expr.tryCatch [] binder handler).ingredients fun ev =>
      runHandler ev caught binder handler :=
    composed_run_handler caught binder fun _ h => h
  simp only [handle_linked]
  exact (hrun.asks_at hev id hdepth).map (linkThrown caught)

theorem try_catch_asks_at (exprs : List Expr) (binder : Option String) (handler : List Expr)
    (hdepth : state.world.depth = depth) :
    AsksAt ev depth deeper fun ev => tryCatch ev exprs binder handler state := by
  have hbody : state.Becomes (body ev exprs state).2 :=
    (agree_body (fun expr state _ => ⟨rfl, hev expr state⟩) exprs).becomes
  have hdepth' := hbody.same_depth.1.trans hdepth
  simp only [try_catch_run]
  refine (statements_asks_at hev exprs .null hdepth).andThen
    (fun ev => handleCaught ev binder handler) ?_
  change (statements ev exprs .null state).2.world.depth = depth at hdepth'
  generalize statements ev exprs .null state = outcome at hdepth' ⊢
  obtain ⟨result, after⟩ := outcome
  unfold handleCaught
  split
  · rename_i hthrown
    cases hthrown
    exact handle_asks_at hev _ binder handler hdepth'
  · rename_i hfault
    cases hfault
    refine .bind (.const _) fun error last herror => handle_asks_at hev error binder handler ?_
    have hnew : Composed (Expr.tryCatch exprs binder handler).ingredients fun _ =>
        perform (Action.newError .recursionError [recursionMessage]) :=
      .perform (Action.within_new_error _ _)
    exact (hnew.same_depth hev herror).trans hdepth'
  · exact .const _

/-! ## The constructs that call functions -/

omit hev in
/-- The call of a class asks for the statements of its constructor. -/
theorem instantiate_asks (id : ClassId) (items : List Value)
    (hinvokes : ∀ method receiver called part inner,
      Invokes state (.classObject id) method receiver called →
        InBody ev called method items receiver part inner → deeper part inner) :
    AsksAt ev depth deeper fun ev => instantiate ev id items state := by
  unfold instantiate
  refine .bind (.const _) fun heap after hheap => ?_
  cases hheap
  dsimp only
  cases hkind : (state.world.heap.classDef id).kind with
  | enum => exact .const _
  | struct => exact .const _
  | regular =>
      refine .bind (.const _) fun object after hobject => ?_
      cases hmethod : state.world.heap.findMethod? id "__init__" with
      | none => exact .const _
      | some method =>
          refine .bind (fun part inner hasks => .inr ?_) fun _ _ _ => .const _
          exact hinvokes _ _ _ _ _ (.init hkind hmethod hobject) hasks.in_body

omit hev in
/-- Calling a value asks for the statements of the function behind it. -/
theorem call_value_asks (callee : Value) (items : List Value)
    (hinvokes : ∀ id receiver called part inner, Invokes state callee id receiver called →
      InBody ev called id items receiver part inner → deeper part inner) :
    AsksAt ev depth deeper fun ev => callValue ev callee items state := by
  cases callee with
  | function id =>
      exact fun part inner hasks => .inr (hinvokes _ _ _ _ _ (.function id) hasks.in_body)
  | boundMethod mark receiver id =>
      exact fun part inner hasks =>
        .inr (hinvokes _ _ _ _ _ (.method mark receiver id) hasks.in_body)
  | classObject id => exact instantiate_asks id items hinvokes
  | _ => exact .const _

theorem values_asks_at (exprs : List Expr) (hdepth : state.world.depth = depth) :
    AsksAt ev depth deeper fun ev => values ev exprs state := by
  have hvalues : Composed (Expr.list exprs).ingredients fun ev => values ev exprs :=
    composed_values fun _ h => h
  exact hvalues.asks_at hev id hdepth

theorem values_becomes {exprs : List Expr} {found : List Value} {after : EvalState}
    (h : values ev exprs state = (.ok found, after)) : state.Becomes after := by
  have hvalues : Composed (Expr.list exprs).ingredients fun ev => values ev exprs :=
    composed_values fun _ h => h
  exact hvalues.becomes hev h

theorem lookup_class_becomes {name : String} {id : ClassId} {after : EvalState}
    (h : lookupClass name state = (.ok id, after)) : state.Becomes after := by
  have hlookup : Composed (Expr.name name).ingredients fun _ => lookupClass name :=
    composed_lookup_class name
  exact hlookup.becomes hev h

theorem call_asks_at (callee : Expr) (items : List Expr) (hdepth : state.world.depth = depth) :
    AsksAt ev depth (RunsBody ev (.call callee items) state) fun ev =>
      call ev callee items state := by
  by_cases hdirect : ∃ name id, callee = .name name ∧ state.world.functions.get? name = some id
  · obtain ⟨name, id, rfl, hname⟩ := hdirect
    simp only [call_run_function hname]
    refine .bind (values_asks_at hev items hdepth) fun arguments called hvalues => ?_
    exact fun part inner hasks => .inr ⟨.named hname hvalues, hasks.in_body⟩
  · have hname (name : String) (hcallee : callee = .name name) :
        state.world.functions.get? name = none :=
      Option.eq_none_iff_forall_ne_some.mpr fun id hid => hdirect ⟨name, id, hcallee, hid⟩
    simp only [call_run_value hname]
    refine .bind (.ask hdepth) fun target middle htarget => ?_
    have hmiddle := (values_becomes hev (values_cons htarget values_nil)).same_depth.1.trans hdepth
    refine .bind (values_asks_at hev items hmiddle) fun arguments after hvalues => ?_
    refine call_value_asks target arguments fun id receiver called part inner hinvokes hbody => ?_
    exact ⟨.value hname (values_cons htarget hvalues) hinvokes, hbody⟩

theorem method_call_asks_at (object : Expr) (name : String) (items : List Expr)
    (hdepth : state.world.depth = depth) :
    AsksAt ev depth (RunsBody ev (.methodCall object name items) state) fun ev =>
      methodCall ev object name items state := by
  refine .bind (.ask hdepth) fun owner middle howner => ?_
  have hmiddle := (values_becomes hev (values_cons howner values_nil)).same_depth.1.trans hdepth
  refine .bind (values_asks_at hev items hmiddle) fun arguments after harguments => ?_
  have hvalues := values_cons howner harguments
  have hattribute (hfields : owner.HasFields) :
      AsksAt ev depth (RunsBody ev (.methodCall object name items) state) fun ev =>
        (getAttribute owner name >>= fun target => callValue ev target arguments) after := by
    refine .bind (.const _) fun target last htarget => ?_
    refine call_value_asks target arguments fun id receiver called part inner hinvokes hbody => ?_
    exact ⟨.method hvalues hfields htarget hinvokes, hbody⟩
  cases owner with
  | object | classObject => exact hattribute trivial
  | _ => exact .const _

theorem new_object_asks_at (className : String) (items : List Expr) (fuel : Nat)
    (hdepth : state.world.depth = depth) :
    AsksAt ev depth (RunsBody ev (.newObject className items) state) fun ev =>
      step ev fuel (.newObject className items) state := by
  refine .bind (.const _) fun id middle hclass => ?_
  have hmiddle := (lookup_class_becomes hev hclass).same_depth.1.trans hdepth
  refine .bind (values_asks_at hev items hmiddle) fun arguments after hvalues => ?_
  refine instantiate_asks id arguments fun method receiver called part inner hinvokes hbody => ?_
  exact ⟨.newObject hclass hvalues hinvokes, hbody⟩

/-- Every rule asks for its parts at the depth at which it is run, statements of functions that it
calls apart. -/
theorem step_asks_at (fuel : Nat) (expr : Expr) (hdepth : state.world.depth = depth) :
    AsksAt ev depth (RunsBody ev expr state) fun ev => step ev fuel expr state := by
  by_cases hcalls : expr.CallsFunctions
  · cases expr with
    | call callee items => exact call_asks_at hev callee items hdepth
    | methodCall object name items => exact method_call_asks_at hev object name items hdepth
    | newObject className items => exact new_object_asks_at hev className items fuel hdepth
    | _ => exact hcalls.elim
  · by_cases hexpr : HandlesErrors expr
    · cases expr with
      | tryCatch exprs binder handler => exact try_catch_asks_at hev exprs binder handler hdepth
      | _ => exact hexpr.elim
    · exact (composed_step hexpr fuel).asks_at hev hcalls hdepth

/-- A call is made in a state to which evaluation has led. -/
theorem Calls.becomes (h : Calls ev expr state id items receiver called) :
    state.Becomes called := by
  have hinvokes {state : EvalState} {target : Value} (h : Invokes state target id receiver called) :
      state.Becomes called := by
    cases h with
    | function | method => exact .refl _
    | init _ _ hnew =>
        have hinstance (contents : Instance) : Composed Expr.null.ingredients fun _ =>
            perform (Action.newInstance contents) := .newInstance contents
        exact (hinstance _).becomes hev hnew
  cases h with
  | named _ hvalues => exact values_becomes hev hvalues
  | value _ hvalues htarget => exact (values_becomes hev hvalues).trans (hinvokes htarget)
  | method hvalues _ hattribute htarget =>
      have hread (owner : Value) (name : String) : Composed Expr.null.ingredients fun _ =>
          getAttribute owner name := composed_get_attribute owner name
      exact ((values_becomes hev hvalues).trans ((hread _ _).becomes hev hattribute)).trans
        (hinvokes htarget)
  | newObject hclass hvalues htarget =>
      exact ((lookup_class_becomes hev hclass).trans (values_becomes hev hvalues)).trans
        (hinvokes htarget)

/-- The statements of a function that is called are evaluated one call deeper, and the limit allows
that. -/
theorem RunsBody.entered (h : RunsBody ev expr state part inner) :
    inner.world.depth = state.world.depth + 1 ∧ inner.world.maxDepth = state.world.maxDepth ∧
      inner.world.depth ≤ state.world.maxDepth := by
  obtain ⟨hcalls, hcount, hlimit, done, rest, value, -, hdone⟩ := h
  rename_i id items receiver called
  have hbody : Composed (Expr.block done).ingredients fun ev => body ev done :=
    composed_body fun _ h => h
  obtain ⟨hcalled, hkept⟩ := (hcalls.becomes hev).same_depth
  obtain ⟨hdepth, hmax⟩ := (hbody.becomes hev hdone).same_depth
  change inner.world.depth = called.world.depth + 1 at hdepth
  change inner.world.maxDepth = called.world.maxDepth at hmax
  omega

end Rules

variable {fuel rest calls : Nat} {last : Expr} {final : EvalState}

/-- A part that is no statement of a function that is called is evaluated at the same depth. -/
theorem Consults.same_depth (h : Consults fuel expr state part inner)
    (hbody : ¬ RunsBody (evaluate fuel) expr state part inner) :
    inner.world.depth = state.world.depth :=
  (step_asks_at (evaluate_becomes fuel) fuel expr rfl part inner h).resolve_right hbody

/-- In the course of an evaluation, the depth is that at the beginning and the number of calls that
have begun since and are in progress. Within such a call, the limit is kept. -/
theorem Nested.depth_eq (h : Nested fuel expr state calls rest last final) :
    final.world.depth = state.world.depth + calls ∧
      (0 < calls → final.world.depth ≤ state.world.maxDepth) := by
  induction h with
  | here => exact ⟨rfl, fun hpos => absurd hpos (Nat.lt_irrefl 0)⟩
  | part hconsults hbody _ ih =>
      rw [hconsults.same_depth hbody, hconsults.reaches.same_limit] at ih
      exact ih
  | @body fuel calls _ _ _ _ _ _ _ hbody _ ih =>
      obtain ⟨hdepth, hlimit, hwithin⟩ := hbody.entered (evaluate_becomes fuel)
      rw [hdepth, hlimit] at ih
      refine ⟨by omega, fun _ => ?_⟩
      -- The innermost call has passed the check of the limit.
      cases calls with
      | zero => omega
      | succ calls => exact ih.2 (Nat.succ_pos calls)

/-- The depth of calls is accounted for: every evaluation and every call leaves it as it was,
however it ends, and all that is evaluated while a program runs is evaluated at a depth that is the
number of calls in progress by then, which stays within the limit. -/
theorem depth_accounting :
    (∀ fuel expr (state : EvalState),
      (evaluate fuel expr state).2.world.depth = state.world.depth) ∧
    (∀ fuel id items receiver (state : EvalState),
      (callFunction (evaluate fuel) id items receiver state).2.world.depth =
        state.world.depth) ∧
    ∀ (interpreter : Interpreter) (fuel rest : Nat) (program : Program) (last : Expr)
      (final : EvalState),
      (Includes (fuel + 1) (.block program) interpreter.started rest last final →
        ∃ calls, Nested (fuel + 1) (.block program) interpreter.started calls rest last final) ∧
      ∀ calls, Nested (fuel + 1) (.block program) interpreter.started calls rest last final →
        final.world.depth = calls ∧ (0 < calls → calls ≤ interpreter.world.maxDepth) := by
  refine ⟨fun fuel expr state => (evaluate_becomes fuel expr state).same_depth.1, ?_, ?_⟩
  · intro fuel id items receiver state
    have hbecomes : state.Becomes (callFunction (evaluate fuel) id items receiver state).2 :=
      (agree_call_function (fun expr state _ => ⟨rfl, evaluate_becomes fuel expr state⟩) id items
        receiver).becomes
    exact hbecomes.same_depth.1
  · intro interpreter fuel rest program last final
    refine ⟨Includes.exists_nested, fun calls hnested => ?_⟩
    obtain ⟨hdepth, hlimit⟩ := hnested.depth_eq
    change final.world.depth = 0 + calls at hdepth
    rw [Nat.zero_add] at hdepth
    exact ⟨hdepth, hdepth ▸ hlimit⟩

/-- The body of a function that is called in the body of another is evaluated at the depth two. -/
theorem depth_accounting_call_in_call :
    let interpreter := Interpreter.fresh 2 (.ofInput "")
    let program : Program :=
      [.defineFunction "f" [] [.null], .defineFunction "g" [] [.call (.name "f") []],
       .call (.name "g") []]
    ∃ final, Nested 4 (.block program) interpreter.started 2 1 .null final ∧
      final.world.depth = 2 ∧ 2 ≤ interpreter.world.maxDepth := by
  intro interpreter program
  let defined := (body (evaluate 3) (program.take 2) interpreter.started).2
  let inG := defined.entering (defined.frame 1 none [])
  let inF := inG.entering (inG.frame 0 none [])
  have hdefined : body (evaluate 3) (program.take 2) interpreter.started = (.ok .null, defined) :=
    rfl
  have hblock : ¬ RunsBody (evaluate 3) (.block program) interpreter.started
      (.call (.name "g") []) defined := by
    rintro ⟨hcalls, -⟩
    cases hcalls
  have hg : RunsBody (evaluate 2) (.call (.name "g") []) defined (.call (.name "f") []) inG :=
    ⟨.named (show _ = some 1 from rfl) values_nil, rfl, by decide, [], [], .null, rfl, rfl⟩
  have hf : RunsBody (evaluate 1) (.call (.name "f") []) inG .null inF :=
    ⟨.named (show _ = some 0 from rfl) values_nil, rfl, by decide, [], [], .null, rfl, rfl⟩
  have hnested : Nested 4 (.block program) interpreter.started 2 1 .null inF :=
    .part (consults_statement hdefined) hblock (.body hg (.body hf (.here 1 .null inF)))
  obtain ⟨hdepth, hlimit⟩ := (depth_accounting.2.2 interpreter 3 1 program .null inF).2 2 hnested
  exact ⟨inF, hnested, hdepth, hlimit (by decide)⟩

end Eval

end Script
