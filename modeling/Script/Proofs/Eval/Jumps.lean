import Script.Proofs.Eval.Conduct

/-!
# Jumps stay in their loops

`Expr.JumpsWithin` says that each `break` and `continue` of an expression stands in the body of a
loop of the same function. Functions can be stored anywhere and called much later, so the condition
is carried along as a property of all functions in the heap. If it holds of a program, no jump that
is meant for a loop reaches the end of a call or of the program.
-/

namespace Script

/-- The construct is a `break` or a `continue`. -/
def Expr.IsJump : Expr → Prop
  | .breakLoop | .continueLoop => True
  | _ => False

/-- Each `break` and `continue` stands in the body of a loop, within the function it stands in. The
flag says that the expression itself stands in the body of a loop. -/
inductive Expr.JumpsWithin : Bool → Expr → Prop where
  | intro {inLoop : Bool} {expr : Expr}
      (own : expr.IsJump → inLoop = true)
      (parts : ∀ part ∈ expr.directParts, JumpsWithin inLoop part)
      (loopBody : ∀ part ∈ expr.loopBody, JumpsWithin true part)
      (functionBodies : ∀ exprs ∈ expr.functionBodies, ∀ part ∈ exprs, JumpsWithin false part) :
      JumpsWithin inLoop expr

namespace Expr.JumpsWithin

variable {inLoop : Bool} {expr : Expr}

theorem own (h : expr.JumpsWithin inLoop) (hjump : expr.IsJump) : inLoop = true := by
  cases h with
  | intro own _ _ _ => exact own hjump

theorem parts (h : expr.JumpsWithin inLoop) {part : Expr} (hpart : part ∈ expr.directParts) :
    part.JumpsWithin inLoop := by
  cases h with
  | intro _ parts _ _ => exact parts part hpart

theorem loopBody (h : expr.JumpsWithin inLoop) {part : Expr} (hpart : part ∈ expr.loopBody) :
    part.JumpsWithin true := by
  cases h with
  | intro _ _ loopBody _ => exact loopBody part hpart

theorem functionBodies (h : expr.JumpsWithin inLoop) {exprs : List Expr}
    (hexprs : exprs ∈ expr.functionBodies) {part : Expr} (hpart : part ∈ exprs) :
    part.JumpsWithin false := by
  cases h with
  | intro _ _ _ functionBodies => exact functionBodies exprs hexprs part hpart

/-- What may stand anywhere may stand in the body of a loop. -/
theorem in_loop (h : expr.JumpsWithin inLoop) : expr.JumpsWithin true := by
  induction h with
  | intro own parts loopBody functionBodies ihparts _ _ =>
      exact .intro (fun _ => rfl) ihparts loopBody functionBodies

end Expr.JumpsWithin

/-- No jump leaves the body of a function in the heap. -/
def Heap.JumpsWithin (heap : Heap) : Prop :=
  ∀ id, ∀ part ∈ (heap.function id).body, part.JumpsWithin false

namespace Heap

theorem JumpsWithin.congr {heap other : Heap} (h : heap.JumpsWithin)
    (hfunctions : other.functions = heap.functions) : other.JumpsWithin := by
  intro id
  unfold function
  rw [hfunctions]
  exact h id

/-- No built-in operation makes or changes a function. -/
theorem Changes.functions {limits : Limits} {heap after : Heap} (h : heap.Changes limits after) :
    after.functions = heap.functions := by
  induction h with
  | trans _ _ ihfirst ihsecond => exact ihsecond.trans ihfirst
  | _ => rfl

theorem kept_jumps_within : Heap.Kept JumpsWithin where
  congr h _ _ hfunctions := h.congr hfunctions
  changes hchanges h := h.congr hchanges.functions

theorem JumpsWithin.push {heap : Heap} (h : heap.JumpsWithin) {definition : FunctionDef}
    (hbody : ∀ part ∈ definition.body, part.JumpsWithin false) :
    JumpsWithin { heap with functions := heap.functions.push definition } := by
  intro id
  show ∀ part ∈ ((heap.functions.push definition).get id).body, _
  rw [Store.get_push]
  split
  · exact hbody
  · exact h id

theorem JumpsWithin.empty (maxDepth : Nat) : (Heap.empty maxDepth).JumpsWithin :=
  fun _ _ hpart => nomatch hpart

end Heap

/-- A jump that is meant for a loop is taken only in the body of one. -/
def Exit.InLoop (inLoop : Bool) (exit : Exit) : Prop :=
  exit.Strays → inLoop = true

theorem Exit.usual_in_loop (inLoop : Bool) : Exit.Usual (Exit.InLoop inLoop) where
  thrown _ := False.elim
  fault _ := False.elim
  stream _ := False.elim
  outOfFuel := False.elim

namespace Eval

variable {fuel depth : Nat} {inLoop : Bool} {expr part : Expr} {state inner : EvalState}

/-- The jumps that a construct makes itself are its own. -/
theorem exits_in_loop (h : expr.JumpsWithin inLoop) {exit : Exit} (hexit : expr.exits exit) :
    exit.InLoop inLoop := by
  intro hstrays
  cases expr with
  | breakLoop | continueLoop => exact h.own trivial
  | returnValue value =>
      obtain ⟨result, rfl⟩ := hexit
      exact hstrays.elim
  | «throwError» value cause =>
      obtain ⟨error, rfl⟩ := hexit
      exact hstrays.elim
  | whileLoop test exprs =>
      cases hexit
      exact hstrays.elim
  | _ => exact hexit.elim

/-- No application makes a function or ends with a jump. -/
theorem fits_jumps_within {heap : Heap} (h : heap.JumpsWithin) (application : Application) :
    Application.Fits Heap.JumpsWithin (Exit.InLoop inLoop) heap application where
  fault _ := False.elim
  ok {after} heffect := by
    obtain ⟨error, caught, rfl⟩ | ⟨_, action, heq, hwithin⟩ := application.cases_effect
    · cases heffect
      exact h.congr rfl
    · rw [heq] at heffect
      obtain ⟨result, hrun⟩ := Action.exists_of_effect heffect
      exact h.congr (hwithin.changes hrun).functions

/-- A rule whose jumps are in place asks for parts whose jumps are in place, of which those in the
body of a loop may jump, and those in the body of a function may not. -/
theorem conforms_jumps {ev other : Evaluator} (hexpr : expr.JumpsWithin inLoop) (fuel : Nat)
    (hev : ∀ depth inLoop part, part.JumpsWithin inLoop →
      Conforms depth Heap.JumpsWithin (Exit.InLoop inLoop) (ev part) (ev part))
    (hsame : ∀ part current, current.world.heap.JumpsWithin → part.JumpsWithin true →
      (current.world.depth = depth ∨ current.world.depth = depth + 1 ∧ part.JumpsWithin false) →
        ev part current = other part current) :
    Conforms depth Heap.JumpsWithin (Exit.InLoop inLoop) (step ev fuel expr)
      (step other fuel expr) := by
  have hpart (inLoop : Bool) (part : Expr) (h : part.JumpsWithin inLoop) :
      Conforms depth Heap.JumpsWithin (Exit.InLoop inLoop) (ev part) (other part) :=
    fun current hdepth hheap =>
      ⟨hsame part current hheap h.in_loop (.inl hdepth), (hev depth inLoop part h _ hdepth hheap).2⟩
  refine conforms_step fuel ?_ fun _ _ _ hheap => fits_jumps_within hheap _
  refine ⟨Heap.kept_jumps_within, Exit.usual_in_loop inLoop, ?_, ?_, ?_, ?_, ?_, ?_⟩
  · exact fun part h => hpart inLoop part (hexpr.parts h)
  · refine fun part h => (hpart true part (hexpr.loopBody h)).mono fun exit _ => ?_
    by_cases hstrays : exit.Strays
    · exact .inr hstrays
    · exact .inl fun h => (hstrays h).elim
  · exact fun heap definition hbody hheap => hheap.push fun part => hexpr.functionBodies hbody
  · intro heap hheap id part hmember current hdepth hcurrent
    have h := hheap id part hmember
    refine ⟨hsame part current hcurrent h.in_loop (.inr ⟨hdepth, h⟩), ?_⟩
    have hleaves := (hev _ false part h current hdepth hcurrent).2
    exact hleaves.mono fun exit hexit => .inl fun hstrays => nomatch hexit hstrays
  · exact fun exit => exits_in_loop hexpr
  · exact fun _ application heap hheap => fits_jumps_within hheap application

/-- An evaluation whose jumps are in place keeps them in place, and ends with one only in the body
of a loop. -/
theorem evaluate_jumps (fuel depth : Nat) (inLoop : Bool) (expr : Expr)
    (h : expr.JumpsWithin inLoop) :
    Conforms depth Heap.JumpsWithin (Exit.InLoop inLoop) (evaluate fuel expr)
      (evaluate fuel expr) := by
  induction fuel generalizing depth inLoop expr with
  | zero => exact .of_leaves fun state hdepth hheap => .of_error hdepth hheap False.elim
  | succ fuel ih => exact conforms_jumps h fuel ih fun _ _ _ _ _ => rfl

/-- The parts that are evaluated have their jumps in place, and those in the body of a call have no
jump that leaves it. -/
theorem Consults.jumps (h : Consults fuel expr state part inner) (hexpr : expr.JumpsWithin inLoop)
    (hheap : state.world.heap.JumpsWithin) :
    inner.world.heap.JumpsWithin ∧ part.JumpsWithin true ∧
      (state.world.depth < inner.world.depth → part.JumpsWithin false) := by
  -- An evaluation that differs only where this is not so comes to the same.
  by_contra hnot
  obtain ⟨other, hother, hdiffers⟩ := h
  refine hdiffers ((conforms_jumps hexpr fuel (evaluate_jumps fuel) ?_) state rfl hheap).1.symm
  intro asked current hcurrent hasked hwhere
  refine (hother asked current ?_).symm
  by_contra hsame
  push Not at hsame
  obtain ⟨rfl, rfl⟩ := hsame
  refine hnot ⟨hcurrent, hasked, fun hdeeper => ?_⟩
  obtain hdepth | ⟨-, hfalse⟩ := hwhere
  · omega
  · exact hfalse

theorem Includes.jumps {rest : Nat} {last : Expr} {final : EvalState}
    (h : Includes fuel expr state rest last final) (hexpr : expr.JumpsWithin true)
    (hheap : state.world.heap.JumpsWithin) :
    final.world.heap.JumpsWithin ∧ last.JumpsWithin true := by
  induction h with
  | here => exact ⟨hheap, hexpr⟩
  | inside hconsults _ ih =>
      obtain ⟨hinner, hpart, -⟩ := hconsults.jumps hexpr hheap
      exact ih hpart hinner

end Eval

/-- If each `break` and `continue` of a program stands in the body of a loop of the function it
stands in, or of the top level, then neither the statements of the program end with such a jump, nor
does any statement in the body of a call that is made while the program runs. -/
theorem jumps_stay_in_loops {program : Program}
    (hprogram : ∀ expr ∈ program, expr.JumpsWithin false) (maxDepth : Nat) (console : Console)
    (fuel : Nat) :
    let start := (Interpreter.fresh maxDepth console).started
    (∀ exit after, Eval.body (Eval.evaluate fuel) program start = (.error exit, after) →
      ¬exit.Strays) ∧
    ∀ rest expr state part inner exit after,
      Eval.Includes (fuel + 1) (.block program) start (rest + 1) expr state →
      Eval.Consults rest expr state part inner → state.world.depth < inner.world.depth →
      Eval.evaluate rest part inner = (.error exit, after) → ¬exit.Strays := by
  intro start
  have hstart : start.world.heap.JumpsWithin := .empty maxDepth
  have hblock : (Expr.block program).JumpsWithin false :=
    .intro False.elim hprogram (fun _ h => nomatch h) fun _ h => nomatch h
  refine ⟨?_, ?_⟩
  · intro exit after hrun hstrays
    have hleaves :=
      (Eval.evaluate_jumps (fuel + 1) 0 false (.block program) hblock start rfl hstart).2
    exact nomatch hleaves.exit (congrArg Prod.fst hrun) hstrays
  · intro rest expr state part inner exit after hincludes hconsults hdeeper hrun hstrays
    obtain ⟨hheap, hexpr⟩ := hincludes.jumps hblock.in_loop hstart
    obtain ⟨hinner, -, hpart⟩ := hconsults.jumps hexpr hheap
    have hleaves := (Eval.evaluate_jumps rest _ false part (hpart hdeeper) inner rfl hinner).2
    exact nomatch hleaves.exit (congrArg Prod.fst hrun) hstrays

/-- A call of a function without parameters asks for the first statement of its body. -/
theorem Eval.consults_called {fuel : Nat} {name : String} {id : FunctionId} {part : Expr}
    {exprs : List Expr} {state : EvalState}
    (hname : state.world.functions.get? name = some id)
    (hparameters : (state.world.heap.function id).parameters = [])
    (hbody : (state.world.heap.function id).body = part :: exprs)
    (hdepth : state.world.depth < state.world.maxDepth) :
    Consults fuel (.call (.name name) []) state part (state.entering (state.frame id none [])) := by
  let inner := state.entering (state.frame id none [])
  let run (ev : Evaluator) := step ev fuel (.call (.name name) []) state
  let mark := inner.withHeap { inner.world.heap with
    nextMark := (run (evaluate fuel)).2.world.heap.nextMark + 1 }
  have hopen : (state.world.heap.function id).openParameters none = [] := hparameters
  have hrun (ev : Evaluator) : run ev = callFunction ev id [] none state :=
    call_run_function hname ev []
  have hfirst : body (interrupted (evaluate fuel) part inner mark) ([] ++ part :: exprs) inner =
      (.error .outOfFuel, mark) :=
    statements_interrupted rfl
  have hstop : run (interrupted (evaluate fuel) part inner mark) =
      (.error .outOfFuel, state.returning mark) := by
    rw [hrun, call_function_run]
    dsimp only
    rw [hopen, if_neg (by simp), if_neg (by omega)]
    unfold atBoundary
    change body _ (part :: exprs) (state.entering _) = _ at hfirst
    rw [in_frame_run, hbody, hfirst]
  refine ⟨interrupted (evaluate fuel) part inner mark, ?_, ?_⟩
  · exact fun asked current hne => interrupted_elsewhere hne
  · intro hsame
    have hmark : mark.world.heap.nextMark = (run (evaluate fuel)).2.world.heap.nextMark :=
      congrArg (·.2.world.heap.nextMark) (hstop.symm.trans hsame)
    exact (Nat.succ_ne_self _) hmark

/-- A function with a loop that it leaves is called: the loop takes the jump. -/
theorem jumps_stay_in_loops_called :
    let loop := Expr.forLoop "x" (.list [.int 1]) [.breakLoop]
    let program := [.defineFunction "f" [] [loop], .call (.name "f") []]
    let start := (Interpreter.fresh 1000 (Console.ofInput "")).started
    let called := (Eval.body (Eval.evaluate 5) [.defineFunction "f" [] [loop]] start).2
    let entered := called.entering (called.frame 0 none [])
    (∀ expr ∈ program, expr.JumpsWithin false) ∧
    Eval.Includes 6 (.block program) start 5 (.call (.name "f") []) called ∧
    Eval.Consults 4 (.call (.name "f") []) called loop entered ∧
    called.world.depth < entered.world.depth ∧
    ∀ exit after, Eval.evaluate 4 loop entered = (.error exit, after) → ¬exit.Strays := by
  intro loop program start called entered
  have hloop : loop.JumpsWithin false := by
    refine .intro False.elim ?_ ?_ fun _ h => nomatch h
    · simp only [loop, Expr.directParts, List.forall_mem_singleton]
      refine .intro False.elim ?_ (fun _ h => nomatch h) fun _ h => nomatch h
      simp only [Expr.directParts, Expr.sharedParts, List.forall_mem_singleton]
      exact .intro False.elim (fun _ h => nomatch h) (fun _ h => nomatch h) fun _ h => nomatch h
    · simp only [loop, Expr.loopBody, List.forall_mem_singleton]
      exact .intro (fun _ => rfl) (fun _ h => nomatch h) (fun _ h => nomatch h) fun _ h => nomatch h
  have hprogram : ∀ expr ∈ program, expr.JumpsWithin false := by
    simp only [program, List.forall_mem_cons]
    refine ⟨?_, ?_, fun _ h => nomatch h⟩
    · refine .intro False.elim (fun _ h => nomatch h) (fun _ h => nomatch h) ?_
      simpa only [Expr.functionBodies, List.forall_mem_singleton] using hloop
    · refine .intro False.elim ?_ (fun _ h => nomatch h) fun _ h => nomatch h
      simp only [Expr.directParts, Expr.sharedParts, List.forall_mem_singleton]
      exact .intro False.elim (fun _ h => nomatch h) (fun _ h => nomatch h) fun _ h => nomatch h
  have hsecond : Eval.Consults 5
      (.block ([.defineFunction "f" [] [loop]] ++ [.call (.name "f") []])) start
      (.call (.name "f") []) called :=
    Eval.consults_statement rfl
  have hincludes : Eval.Includes 6 (.block program) start 5 (.call (.name "f") []) called :=
    .inside hsecond (.here 5 _ called)
  have hconsults : Eval.Consults 4 (.call (.name "f") []) called loop entered :=
    Eval.consults_called rfl rfl rfl (by decide)
  have hdeeper : called.world.depth < entered.world.depth := Nat.lt_succ_self _
  obtain ⟨-, hcalls⟩ := jumps_stay_in_loops hprogram 1000 (Console.ofInput "") 5
  exact ⟨hprogram, hincludes, hconsults, hdeeper, fun exit after =>
    hcalls 4 _ called loop entered exit after hincludes hconsults hdeeper⟩

end Script
