import Script.Proofs.Eval.Inclusion

/-!
# How evaluations leave things

`Eval.Leaves` says that an evaluation ends at the depth of calls at which it began, with a heap that
has some property and, if it ends without a value, with one of some exits. `Eval.Conforms` says so
of an evaluation from every state with that property, and that another evaluation does the same;
it is shown for every rule that is put together from its ingredients, given that it holds for the
parts.
-/

namespace Script

/-- The exit is a jump that only a loop takes. -/
def Exit.Strays : Exit → Prop
  | .jump .breaking | .jump .continuing => True
  | _ => False

/-- The exit is a jump. -/
def Exit.Jumps : Exit → Prop
  | .jump _ => True
  | _ => False

/-- The property of heaps depends on lists, errors and functions only, and making objects keeps
it. -/
structure Heap.Kept (keeps : Heap → Prop) : Prop where
  congr {heap other : Heap} :
    keeps heap → other.lists = heap.lists → other.errors = heap.errors →
      other.functions = heap.functions → keeps other
  changes {heap after : Heap} : heap.Changes .none after → keeps heap → keeps after

/-- Among the exits are those that every evaluation may take. -/
structure Exit.Usual (exits : Exit → Prop) : Prop where
  thrown (error : ErrorId) : exits (.thrown error)
  fault {fault : Fault} : fault.hasError = true → exits (.fault fault)
  stream (fault : StreamFault) : exits (.fault (.stream fault))
  outOfFuel : exits .outOfFuel

/-- An application keeps the property of the heap, and stops only as it may. -/
structure Application.Fits (keeps : Heap → Prop) (exits : Exit → Prop) (heap : Heap)
    (application : Application) : Prop where
  ok {after : Heap} : application.effect heap = .ok after → keeps after
  fault {fault : Fault} : application.effect heap = .error (.fault fault) → exits (.fault fault)

namespace Eval

variable {α β : Type} {depth : Nat} {keeps : Heap → Prop} {exits : Exit → Prop}

/-- What an evaluation leaves: the depth at which it began, a heap with the property, and one of
the exits if there is no value. -/
structure Leaves (depth : Nat) (keeps : Heap → Prop) (exits : Exit → Prop)
    (outcome : Except Exit α × EvalState) : Prop where
  depth : outcome.2.world.depth = depth
  heap : keeps outcome.2.world.heap
  exit {exit : Exit} : outcome.1 = .error exit → exits exit

namespace Leaves

/-- A value leaves nothing else to show. -/
theorem of_ok {result : α} {state : EvalState} (hdepth : state.world.depth = depth)
    (hheap : keeps state.world.heap) :
    Leaves depth keeps exits ((.ok result, state) : Except Exit α × EvalState) :=
  ⟨hdepth, hheap, fun h => by cases h⟩

theorem of_error {exit : Exit} {state : EvalState} (hdepth : state.world.depth = depth)
    (hheap : keeps state.world.heap) (hexit : exits exit) :
    Leaves depth keeps exits ((.error exit, state) : Except Exit α × EvalState) :=
  ⟨hdepth, hheap, fun h => by cases h; exact hexit⟩

theorem mono {more : Exit → Prop} {outcome : Except Exit α × EvalState}
    (h : Leaves depth keeps exits outcome) (hmore : ∀ exit, exits exit → more exit) :
    Leaves depth keeps more outcome :=
  ⟨h.depth, h.heap, fun hexit => hmore _ (h.exit hexit)⟩

/-- What follows has to be looked at only where the first part leads. -/
theorem bind {part : Eval α} {next : α → Eval β} {state : EvalState}
    (hpart : Leaves depth keeps exits (part state))
    (hnext : ∀ result after, part state = (.ok result, after) → after.world.depth = depth →
      keeps after.world.heap → Leaves depth keeps exits (next result after)) :
    Leaves depth keeps exits ((part >>= next) state) := by
  rw [run_bind]
  rcases hrun : part state with ⟨exit | result, after⟩
  · rw [hrun] at hpart
    exact ⟨hpart.depth, hpart.heap, fun h => by cases h; exact hpart.exit rfl⟩
  · rw [hrun] at hpart
    exact hnext result after hrun hpart.depth hpart.heap

variable {state : EvalState} (hkept : Heap.Kept keeps) (husual : Exit.Usual exits)
include hkept husual

theorem perform {action : Action α} (hdepth : state.world.depth = depth)
    (hheap : keeps state.world.heap)
    (hok : ∀ result after, action state.world.heap = .ok (result, after) → keeps after)
    (hfault : ∀ fault, action state.world.heap = .error (.fault fault) → exits (.fault fault)) :
    Leaves depth keeps exits (perform action state) := by
  unfold Eval.perform
  split
  · rename_i result after hrun
    exact .of_ok hdepth (hok _ _ hrun)
  · rename_i fault hrun
    exact .of_error hdepth hheap (hfault _ hrun)
  · exact .of_error hdepth (hkept.changes (.newError _ _ _) hheap) (husual.thrown _)

/-- An operation that does no more than make objects and raise errors. -/
theorem quiet {action : Action α} (h : action.Within .none) (hdepth : state.world.depth = depth)
    (hheap : keeps state.world.heap) : Leaves depth keeps exits (Eval.perform action state) := by
  refine perform hkept husual hdepth hheap ?_ ?_
  · exact fun _ _ hrun => hkept.changes (h.changes hrun) hheap
  · intro fault hrun
    cases hhas : fault.hasError with
    | true => exact husual.fault hhas
    | false => exact (h.allows hrun hhas).elim

theorem apply {action : Action α} {application : Application}
    (heffect : action.effect = application.effect) (hdepth : state.world.depth = depth)
    (hheap : keeps state.world.heap)
    (h : application.Fits keeps exits state.world.heap) :
    Leaves depth keeps exits (Eval.perform action state) := by
  refine perform hkept husual hdepth hheap ?_ ?_
  · intro result after hrun
    exact h.ok (heffect ▸ Action.effect_of_ok hrun)
  · intro fault hrun
    exact h.fault (heffect ▸ Action.effect_eq_error_iff.mpr hrun)

theorem raise (kind : ErrorKind) (message : String) (hdepth : state.world.depth = depth)
    (hheap : keeps state.world.heap) :
    Leaves depth keeps exits ((raise kind message : Eval α) state) :=
  quiet hkept husual (Action.within_raise kind message) hdepth hheap

end Leaves

/-- Two outcomes are the same, and one that may be left. -/
structure LeavesSame (depth : Nat) (keeps : Heap → Prop) (exits : Exit → Prop)
    (outcome other : Except Exit α × EvalState) : Prop where
  eq : outcome = other
  leaves : Leaves depth keeps exits outcome

/-- What follows has to be looked at only where the first part leads. -/
theorem LeavesSame.bind {state : EvalState} {part part' : Eval α} {next next' : α → Eval β}
    (hpart : LeavesSame depth keeps exits (part state) (part' state))
    (hnext : ∀ result after, part state = (.ok result, after) → after.world.depth = depth →
      keeps after.world.heap →
        LeavesSame depth keeps exits (next result after) (next' result after)) :
    LeavesSame depth keeps exits ((part >>= next) state) ((part' >>= next') state) := by
  obtain ⟨heq, hleaves⟩ := hpart
  refine ⟨?_, hleaves.bind fun result after hrun hdepth hheap =>
    (hnext result after hrun hdepth hheap).leaves⟩
  rw [run_bind, run_bind, ← heq]
  rcases hrun : part state with ⟨exit | result, after⟩
  · rfl
  · rw [hrun] at hleaves
    exact (hnext result after hrun hleaves.depth hleaves.heap).eq

/-- From every state with the property, both evaluations do the same, and leave what they may. -/
def Conforms (depth : Nat) (keeps : Heap → Prop) (exits : Exit → Prop) (part other : Eval α) :
    Prop :=
  ∀ state, state.world.depth = depth → keeps state.world.heap →
    LeavesSame depth keeps exits (part state) (other state)

namespace Conforms

theorem mono {more : Exit → Prop} {part other : Eval α} (h : Conforms depth keeps exits part other)
    (hmore : ∀ exit, exits exit → more exit) : Conforms depth keeps more part other :=
  fun state hdepth hheap =>
    ⟨(h state hdepth hheap).eq, (h state hdepth hheap).leaves.mono hmore⟩

/-- An evaluation that asks for no parts. -/
theorem of_leaves {part : Eval α}
    (h : ∀ state, state.world.depth = depth → keeps state.world.heap →
      Leaves depth keeps exits (part state)) : Conforms depth keeps exits part part :=
  fun state hdepth hheap => ⟨rfl, h state hdepth hheap⟩

theorem pure (result : α) : Conforms depth keeps exits (pure result) (pure result) :=
  of_leaves fun _ => .of_ok

theorem bind {part part' : Eval α} {next next' : α → Eval β}
    (hpart : Conforms depth keeps exits part part')
    (hnext : ∀ result, Conforms depth keeps exits (next result) (next' result)) :
    Conforms depth keeps exits (part >>= next) (part' >>= next') :=
  fun state hdepth hheap => (hpart state hdepth hheap).bind fun result after _ => hnext result after

theorem statements {ev other : Evaluator} {exprs : List Expr}
    (h : ∀ expr ∈ exprs, Conforms depth keeps exits (ev expr) (other expr)) (last : Value) :
    Conforms depth keeps exits (statements ev exprs last) (statements other exprs last) := by
  induction exprs generalizing last with
  | nil => exact pure last
  | cons expr exprs ih =>
      rw [List.forall_mem_cons] at h
      exact h.1.bind (ih h.2)

theorem body {ev other : Evaluator} {exprs : List Expr}
    (h : ∀ expr ∈ exprs, Conforms depth keeps exits (ev expr) (other expr)) :
    Conforms depth keeps exits (body ev exprs) (body other exprs) :=
  statements h .null

theorem round {ev other : Evaluator} {exprs : List Expr}
    (h : ∀ expr ∈ exprs, Conforms depth keeps (fun exit => exits exit ∨ exit.Strays) (ev expr)
      (other expr)) :
    Conforms depth keeps exits (loopRound ev exprs) (loopRound other exprs) := by
  intro state hdepth hheap
  obtain ⟨heq, hleaves⟩ := body h state hdepth hheap
  unfold loopRound
  rw [← heq]
  refine ⟨rfl, ?_⟩
  generalize Eval.body ev exprs state = outcome at hleaves
  obtain ⟨result, after⟩ := outcome
  cases result with
  | ok value => exact .of_ok hleaves.depth hleaves.heap
  | error exit =>
      cases exit with
      | jump jump =>
          cases jump with
          | returning value =>
              exact .of_error hleaves.depth hleaves.heap
                ((hleaves.exit rfl).resolve_right False.elim)
          | breaking | continuing => exact .of_ok hleaves.depth hleaves.heap
      | thrown | fault | outOfFuel =>
          exact .of_error hleaves.depth hleaves.heap ((hleaves.exit rfl).resolve_right False.elim)

theorem aside {source source' : Eval α} {run run' : α → Eval β}
    (hsource : Conforms depth keeps exits source source')
    (hrun : ∀ result, Conforms depth keeps exits (run result) (run' result)) :
    Conforms depth keeps exits (aside source run) (aside source' run') := by
  intro state hdepth hheap
  obtain ⟨heq, hleaves⟩ := hsource state hdepth hheap
  unfold Eval.aside
  rw [← heq]
  generalize source state = outcome at hleaves
  rcases outcome with ⟨exit | result, middle⟩
  · exact ⟨rfl, .of_error hleaves.depth hleaves.heap (hleaves.exit rfl)⟩
  · obtain ⟨heq', hleaves'⟩ :=
      hrun result { middle with scope := state.scope } hleaves.depth hleaves.heap
    dsimp only
    rw [← heq']
    exact ⟨rfl, hleaves'.depth, hleaves'.heap, hleaves'.exit⟩

variable (hkept : Heap.Kept keeps) (husual : Exit.Usual exits)
include hkept husual

/-- A jump out of the body of a call is taken, or is an error. -/
theorem call {ev other : Evaluator}
    (h : ∀ heap, keeps heap → ∀ id, ∀ expr ∈ (heap.function id).body,
      Conforms (depth + 1) keeps (fun exit => exits exit ∨ exit.Jumps) (ev expr) (other expr))
    (id : FunctionId) (items : List Value) (receiver : Option InstanceId) :
    Conforms depth keeps exits (callFunction ev id items receiver)
      (callFunction other id items receiver) := by
  intro state hdepth hheap
  rw [call_function_run, call_function_run]
  dsimp only
  split
  · exact ⟨rfl, .raise hkept husual _ _ hdepth hheap⟩
  split
  · exact ⟨rfl, .raise hkept husual _ _ hdepth hheap⟩
  obtain ⟨heq, hleaves⟩ := body (h _ hheap id) (state.entering (state.frame id receiver items))
    (congrArg (· + 1) hdepth) hheap
  unfold atBoundary
  rw [in_frame_run, in_frame_run, ← heq]
  refine ⟨rfl, ?_⟩
  generalize Eval.body ev (state.world.heap.function id).body
    (state.entering (state.frame id receiver items)) = outcome at hleaves
  obtain ⟨result, after⟩ := outcome
  have hback : (state.returning after).world.depth = depth := by
    show after.world.depth - 1 = depth
    have hdeeper : after.world.depth = depth + 1 := hleaves.depth
    omega
  cases result with
  | ok value => exact .of_ok hback hleaves.heap
  | error exit =>
      cases exit with
      | jump jump =>
          cases jump with
          | returning value => exact .of_ok hback hleaves.heap
          | breaking | continuing => exact .raise hkept husual _ _ hback hleaves.heap
      | thrown | fault | outOfFuel =>
          exact .of_error hback hleaves.heap ((hleaves.exit rfl).resolve_right False.elim)

end Conforms

/-- What the parts of a construct have to do for its rule to conform. -/
structure Setting (depth : Nat) (keeps : Heap → Prop) (exits : Exit → Prop)
    (ingredients : Ingredients) (ev other : Evaluator) : Prop where
  kept : Heap.Kept keeps
  usual : Exit.Usual exits
  parts : ∀ expr ∈ ingredients.parts, Conforms depth keeps exits (ev expr) (other expr)
  loopBody : ∀ expr ∈ ingredients.loopBody,
    Conforms depth keeps (fun exit => exits exit ∨ exit.Strays) (ev expr) (other expr)
  functionBodies (heap : Heap) (definition : FunctionDef) :
    definition.body ∈ ingredients.functionBodies → keeps heap →
      keeps { heap with functions := heap.functions.push definition }
  calls (heap : Heap) : keeps heap → ∀ id, ∀ expr ∈ (heap.function id).body,
    Conforms (depth + 1) keeps (fun exit => exits exit ∨ exit.Jumps) (ev expr) (other expr)
  ownExits (exit : Exit) : ingredients.exits exit → exits exit
  applies : ingredients.applies → ∀ application heap, keeps heap →
    Application.Fits keeps exits heap application

/-- A check of a name makes an error at most, and a binding changes the scope only. -/
theorem leaves_checked (hkept : Heap.Kept keeps) (husual : Exit.Usual exits) (name : String)
    (change : Scope → Scope) {state : EvalState} (hdepth : state.world.depth = depth)
    (hheap : keeps state.world.heap) :
    Leaves depth keeps exits
      ((do
        checkWritable name
        setScope (change (← scope)) : Eval Unit) state) := by
  have hcheck : Leaves depth keeps exits (checkWritable name state) := by
    have hconstant {state : EvalState} (hdepth : state.world.depth = depth)
        (hheap : keeps state.world.heap) :
        Leaves depth keeps exits
          ((do
            if (← scope).isConstant name then
              raise .typeError s!"cannot reassign constant '{name}'" : Eval Unit) state) := by
      refine .bind (.of_ok hdepth hheap) fun current after _ hdepth hheap => ?_
      split
      · exact .raise hkept husual _ _ hdepth hheap
      · exact .of_ok hdepth hheap
    unfold checkWritable
    dsimp only
    split
    · exact .bind (.raise hkept husual _ _ hdepth hheap) fun _ _ _ => hconstant
    · exact hconstant hdepth hheap
  refine hcheck.bind fun _ after _ hdepth hheap => ?_
  exact .bind (.of_ok hdepth hheap) fun _ _ _ hdepth hheap => .of_ok hdepth hheap

/-- A fault of a stream makes an error at most, or is left as it is. -/
theorem leaves_on_console (hkept : Heap.Kept keeps) (husual : Exit.Usual exits)
    (use : Console → Except StreamFault α × Console) {state : EvalState}
    (hdepth : state.world.depth = depth) (hheap : keeps state.world.heap) :
    Leaves depth keeps exits (onConsole use state) := by
  rw [on_console_run]
  rcases use state.world.console with ⟨fault | result, console⟩
  · cases fault with
    | system reason => exact .raise hkept husual _ _ hdepth hheap
    | closed | undecodable | unencodable => exact .of_error hdepth hheap (husual.stream _)
  · exact .of_ok hdepth hheap

/-- Every rule that is put together from its ingredients conforms if its parts do. -/
theorem Composed.conforms {ingredients : Ingredients} {ev other : Evaluator}
    {rule : Evaluator → Eval α} (h : Composed ingredients rule)
    (hsetting : Setting depth keeps exits ingredients ev other) :
    Conforms depth keeps exits (rule ev) (rule other) := by
  have hkept := hsetting.kept
  have husual := hsetting.usual
  induction h with
  | pure result => exact .pure result
  | throw hexit =>
      exact .of_leaves fun _ hdepth hheap => .of_error hdepth hheap (hsetting.ownExits _ hexit)
  | look _ _ ihnext =>
      have hget : Conforms depth keeps exits (get : Eval EvalState) get :=
        .of_leaves fun _ => .of_ok
      exact hget.bind ihnext
  | bind _ _ ihfirst ihnext => exact ihfirst.bind ihnext
  | ask hpart => exact hsetting.parts _ hpart
  | perform haction => exact .of_leaves fun _ => .quiet hkept husual haction
  | apply application heffect happlies =>
      exact .of_leaves fun _ hdepth hheap => .apply hkept husual heffect hdepth hheap
        (hsetting.applies happlies application _ hheap)
  | newInstance contents | setField | newClass =>
      exact .of_leaves fun _ hdepth hheap => .of_ok hdepth (hkept.congr hheap rfl rfl rfl)
  | newFunction hbody _ =>
      exact .of_leaves fun _ hdepth hheap =>
        .of_ok hdepth (hsetting.functionBodies _ _ hbody hheap)
  | bindName name value =>
      exact .of_leaves fun _ => leaves_checked hkept husual name (·.bind name value)
  | bindConstant name value =>
      exact .of_leaves fun _ => leaves_checked hkept husual name (·.bindConstant name value)
  | record | nameFunction | nameClass =>
      exact .of_leaves fun _ hdepth hheap => .of_ok hdepth hheap
  | write | readLine => exact .of_leaves fun _ => leaves_on_console hkept husual _
  | call id items receiver => exact .call hkept husual hsetting.calls id items receiver
  | round => exact .round hsetting.loopBody
  | aside _ _ ihsource ihrun => exact .aside ihsource ihrun

/-! ## The handling of errors -/

/-- An error of a handler is thrown after it has been linked, if it is. -/
theorem leaves_throw_linked (hkept : Heap.Kept keeps) (husual : Exit.Usual exits)
    {caught inner : ErrorId} {state : EvalState} (hdepth : state.world.depth = depth)
    (hheap : keeps state.world.heap)
    (hlink : inner ≠ caught → (state.world.heap.error inner).context = none →
      Application.Fits keeps exits state.world.heap (.context inner caught)) :
    Leaves depth keeps exits (throwLinked caught inner state) := by
  have hthrow {state : EvalState} (hdepth : state.world.depth = depth)
      (hheap : keeps state.world.heap) :
      Leaves depth keeps exits ((throw (.thrown inner) : Eval Value) state) :=
    .of_error hdepth hheap (husual.thrown inner)
  show Leaves depth keeps exits ((if inner ≠ caught && _ then _ else _ : Eval Value) state)
  split
  · rename_i hunlinked
    simp only [ne_eq, Bool.and_eq_true, decide_eq_true_eq, Option.isNone_iff_eq_none] at hunlinked
    refine .bind (.apply hkept husual rfl hdepth hheap (hlink hunlinked.1 hunlinked.2)) ?_
    exact fun _ _ _ => hthrow
  · exact hthrow hdepth hheap

/-- The error that is handled, and the state in which its handler begins: an error that the body has
thrown, or a new one for a recursion that was too deep. -/
inductive Catches (ev : Evaluator) (exprs : List Expr) (state : EvalState) :
    ErrorId → EvalState → Prop where
  | thrown {caught : ErrorId} {after : EvalState}
      (h : body ev exprs state = (.error (.thrown caught), after)) :
      Catches ev exprs state caught after
  | recursion {caught : ErrorId} {middle after : EvalState}
      (h : body ev exprs state = (.error (.fault .recursion), middle))
      (hnew : perform (Action.newError .recursionError [recursionMessage]) middle =
        (.ok caught, after)) :
      Catches ev exprs state caught after

/-- A handler throws another error than the one that it handles, which is linked to it. -/
inductive Links (ev : Evaluator) (exprs : List Expr) (binder : Option String) (handler : List Expr)
    (state : EvalState) (inner caught : ErrorId) (after : EvalState) : Prop where
  | intro {entered : EvalState} (catches : Catches ev exprs state caught entered)
      (throws : runHandler ev caught binder handler entered = (.error (.thrown inner), after))
      (other : inner ≠ caught) (unlinked : (after.world.heap.error inner).context = none)

theorem try_catch_leaves_same {ev other : Evaluator} {exprs : List Expr} (binder : Option String)
    {handler : List Expr} {state : EvalState}
    (hsetting : Setting depth keeps exits (Expr.tryCatch exprs binder handler).ingredients ev other)
    (hdepth : state.world.depth = depth) (hheap : keeps state.world.heap)
    (hlink : ∀ inner caught after, Links ev exprs binder handler state inner caught after →
      keeps after.world.heap →
        Application.Fits keeps exits after.world.heap (.context inner caught)) :
    LeavesSame depth keeps exits (tryCatch ev exprs binder handler state)
      (tryCatch other exprs binder handler state) := by
  have hkept := hsetting.kept
  have husual := hsetting.usual
  have hhandle {caught : ErrorId} {entered : EvalState}
      (hcatches : Catches ev exprs state caught entered)
      (hdepth : entered.world.depth = depth) (hheap : keeps entered.world.heap) :
      LeavesSame depth keeps exits (handle ev caught binder handler entered)
        (handle other caught binder handler entered) := by
    have hrun : Composed (Expr.tryCatch exprs binder handler).ingredients fun ev =>
        runHandler ev caught binder handler :=
      composed_run_handler caught binder fun _ => List.mem_append_right exprs
    obtain ⟨heq, hleaves⟩ := hrun.conforms hsetting entered hdepth hheap
    rw [handle_run, handle_run, ← heq]
    refine ⟨rfl, ?_⟩
    split
    · rename_i inner after hthrown
      rw [hthrown] at hleaves
      refine leaves_throw_linked hkept husual hleaves.depth hleaves.heap fun hother hunlinked => ?_
      exact hlink inner caught after ⟨hcatches, hthrown, hother, hunlinked⟩ hleaves.heap
    · exact hleaves
  have hbody : Conforms depth keeps exits (body ev exprs) (body other exprs) :=
    .body fun expr hexpr => hsetting.parts expr (List.mem_append_left handler hexpr)
  obtain ⟨heq, hleaves⟩ := hbody state hdepth hheap
  unfold tryCatch
  rw [← heq]
  split
  · rename_i error after hthrown
    rw [hthrown] at hleaves
    exact hhandle (.thrown hthrown) hleaves.depth hleaves.heap
  · rename_i middle hfault
    rw [hfault] at hleaves
    have hnew : Conforms depth keeps exits
        (perform (Action.newError .recursionError [recursionMessage]))
        (perform (Action.newError .recursionError [recursionMessage])) :=
      .of_leaves fun _ => .quiet hkept husual (Action.within_new_error _ _)
    exact (hnew middle hleaves.depth hleaves.heap).bind fun error after hrun =>
      hhandle (.recursion hfault hrun)
  · exact ⟨rfl, hleaves⟩

/-- Every rule conforms if its parts do. -/
theorem conforms_step {expr : Expr} {ev other : Evaluator} (fuel : Nat)
    (hsetting : Setting depth keeps exits expr.ingredients ev other)
    (hlink : ∀ heap error caught, keeps heap →
      Application.Fits keeps exits heap (.context error caught)) :
    Conforms depth keeps exits (step ev fuel expr) (step other fuel expr) := by
  by_cases hexpr : HandlesErrors expr
  · cases expr with
    | tryCatch exprs binder handler =>
        exact fun state hdepth hheap => try_catch_leaves_same binder hsetting hdepth hheap
          fun inner caught after _ => hlink after.world.heap inner caught
    | _ => exact hexpr.elim
  · exact (composed_step hexpr fuel).conforms hsetting

end Eval

end Script
