import Mathlib
import Script.Proofs.Eval.Parallel
import Script.Proofs.Eval.Reachable
import Script.Proofs.Parser.Sequence
import Script.Proofs.Token.Sequence

/-!
# Running programs one after the other

Two sources with a semicolon on a line between them are one program, which has the statements of
both. Running it does what running the one source and then the other does: `run_in_sequence`. What a
run starts with is what the run before has left, since the depth of calls is the same after a
statement as before it, and since the log is never read.
-/

namespace Script

attribute [local instance] KnownClasses.all

namespace Program

open Simulation

/-- The source is this program, which can be run under a limit on the depth of calls. -/
def Reads (maxDepth : Nat) (source : String) (program : Program) : Prop :=
  ∃ tokens, Token.tokenize source = .ok tokens ∧
    ofTokensWithin true (sourceNestingLimit maxDepth) tokens = .ok program

/-- A source is one program at most. -/
theorem Reads.unique {maxDepth : Nat} {source : String} {program other : Program}
    (h : Reads maxDepth source program) (hother : Reads maxDepth source other) :
    program = other := by
  obtain ⟨tokens, htokens, hread⟩ := h
  obtain ⟨tokens', htokens', hread'⟩ := hother
  cases htokens.symm.trans htokens'
  exact Except.ok.inj (hread.symm.trans hread')

/-- Two sources with a semicolon on a line between them are read as the statements of both. -/
theorem Reads.append {maxDepth : Nat} {first second : String} {program program₂ : Program}
    (h : Reads maxDepth first program) (h₂ : Reads maxDepth second program₂) :
    Reads maxDepth (first ++ "\n;\n" ++ second) (program ++ program₂) := by
  obtain ⟨tokens, htokens, hread⟩ := h
  obtain ⟨tokens₂, htokens₂, hread₂⟩ := h₂
  obtain ⟨cut, stop, last, rfl, hkinds, hjoined⟩ := Token.tokenize_append htokens htokens₂
  obtain ⟨cut₂, stop₂, last₂, rfl, hkinds₂, -⟩ := Token.tokens_from_break htokens₂
  refine ⟨_, hjoined, ?_⟩
  have hmoved (t : Token) : Moved (last + 1) t (t.moved (stop + 3) (last + 1)) := ⟨rfl, rfl, rfl⟩
  rw [List.map_append, List.map_singleton]
  refine of_tokens_within_append hkinds rfl rfl hkinds₂ rfl ?_ (hmoved _) hread hread₂
  exact List.forall₂_map_right_iff.mpr (List.forall₂_same.mpr fun t _ => hmoved t)

end Program

namespace Eval

/-- Statements in two rows are evaluated one row after the other. -/
theorem statements_append (ev : Evaluator) (exprs more : List Expr) (last : Value)
    (state : EvalState) :
    statements ev (exprs ++ more) last state =
      match statements ev exprs last state with
      | (.ok value, after) => statements ev more value after
      | (.error exit, after) => (.error exit, after) := by
  induction exprs generalizing last state with
  | nil => rfl
  | cons expr exprs ih =>
      show (ev expr >>= fun value => statements ev (exprs ++ more) value) state =
        match (ev expr >>= fun value => statements ev exprs value) state with
        | (.ok value, after) => statements ev more value after
        | (.error exit, after) => (.error exit, after)
      rw [run_bind, run_bind]
      rcases ev expr state with ⟨_ | value, after⟩
      · rfl
      · exact ih value after

/-- The value of at least one statement does not depend on any before. -/
theorem statements_of_ne_nil {exprs : List Expr} (h : exprs ≠ []) (ev : Evaluator) (last : Value) :
    statements ev exprs last = body ev exprs := by
  cases exprs with
  | nil => exact absurd rfl h
  | cons expr exprs => rfl

end Eval

namespace Interpreter

open Eval EvalState

/-- The interpreter with another log. -/
def withLog (interpreter : Interpreter) (log : List LogEvent) : Interpreter :=
  { interpreter with world := { interpreter.world with log := log } }

/-- Two runs have ended in the same way, with the same bindings, constants, functions, classes and
heap, and the same text written. Their logs may differ. -/
def SameRun (run run' : RunResult × Interpreter) : Prop :=
  run.1 = run'.1 ∧ ∃ log, run.2 = run'.2.withLog log

/-- A `return` that is in no function ends the program early. -/
def ReturnsEarly (interpreter : Interpreter) (fuel : Nat) (program : Program) : Prop :=
  ∃ value after,
    body (evaluate fuel) program interpreter.started = (.error (.jump (.returning value)), after)

/-- How a run is reported. -/
def report (run : Except Exit Value × EvalState) : RunResult × Interpreter :=
  (match run.1 with
    | .ok value => .value value
    | .error (.thrown error) => .failed (.thrown error)
    | .error (.fault fault) => .fault fault
    | .error (.jump _) | .error .outOfFuel => .outOfFuel,
   ⟨run.2.scope, run.2.world⟩)

variable {interpreter : Interpreter} {fuel : Nat} {program : Program}

/-- What running a program gives. -/
theorem run_program_eq (interpreter : Interpreter) (fuel : Nat) (program : Program) :
    interpreter.runProgram fuel program =
      report (raiseFaults (atBoundary (body (evaluate fuel) program)) interpreter.started) := by
  unfold runProgram
  dsimp only
  split
  rename_i result after hrun
  have hafter : raiseFaults (atBoundary (body (evaluate fuel) program)) interpreter.started =
      (result, after) := hrun
  rw [hafter]
  split <;> rfl

/-- What running a source gives that is a program, unless the depth of calls is too high. -/
theorem run_eq {source : String} (hdepth : interpreter.depthFault? = none)
    (h : Program.Reads interpreter.world.maxDepth source program) :
    interpreter.run fuel source =
      (interpreter.withLog (.sourceRead source.length :: interpreter.world.log)).runProgram fuel
        program := by
  obtain ⟨tokens, htokens, hread⟩ := h
  unfold run runSource
  rw [hdepth, htokens]
  dsimp only
  rw [hread]
  rfl

/-- Runs that end in the same way are reported in the same way. -/
theorem same_run_of_ends {run run' : Except Exit Value × EvalState}
    (h : Ends False Value.Sound run run') : SameRun (report run') (report run) := by
  cases h with
  | ok _ halike =>
      obtain ⟨log, -⟩ := halike
      exact ⟨rfl, log, rfl⟩
  | error _ halike =>
      obtain ⟨log, -⟩ := halike
      exact ⟨rfl, log, rfl⟩

/-- A program whose statements do not come to their end has a value only through a `return`. -/
theorem returning_of_value {run : Eval Value} {state after : EvalState} {exit : Exit}
    {value : Value} (hrun : run state = (.error exit, after))
    (h : (report (raiseFaults (atBoundary run) state)).1 = .value value) :
    ∃ result, exit = .jump (.returning result) := by
  unfold raiseFaults atBoundary at h
  rw [hrun] at h
  cases exit with
  | thrown error => cases h
  | outOfFuel => cases h
  | jump jump =>
      cases jump with
      | returning result => exact ⟨result, rfl⟩
      | breaking => cases h
      | continuing => cases h
  | fault fault =>
      cases fault with
      | recursion => cases h
      | memory => cases h
      | overflow message => cases h
      | _ => cases h

/-- A program of two parts, of which the first does not come to its end, ends as the first. -/
theorem ends_of_error (more : List Expr) {state state' after : EvalState} {exit : Exit}
    (halike : Alike False state state')
    (h : body (evaluate fuel) program state = (.error exit, after)) :
    Ends False Value.Sound (raiseFaults (atBoundary (body (evaluate fuel) program)) state)
      (raiseFaults (atBoundary (body (evaluate fuel) (program ++ more))) state') := by
  have hends := parallel_body (parallel_evaluate fuel) program state state' halike
  refine ends_raise_faults (.at_boundary ?_)
  rw [h] at hends ⊢
  unfold body at hends ⊢
  rw [statements_append]
  generalize statements (evaluate fuel) program .null state' = run at hends ⊢
  cases hends with
  | error hexit halike => exact .error hexit halike

/-- A program of two parts, of which the first comes to its end, ends as the second does there. -/
theorem ends_of_ok {more : List Expr} (hmore : more ≠ []) {state state' after : EvalState}
    {value : Value} (halike : Alike False state state')
    (h : body (evaluate fuel) program state = (.ok value, after)) :
    ∃ after', Alike False after after' ∧
      raiseFaults (atBoundary (body (evaluate fuel) (program ++ more))) state' =
        raiseFaults (atBoundary (body (evaluate fuel) more)) after' := by
  have hends := parallel_body (parallel_evaluate fuel) program state state' halike
  rw [h] at hends
  have hjoined : ∃ after', Alike False after after' ∧
      body (evaluate fuel) (program ++ more) state' = body (evaluate fuel) more after' := by
    unfold body at hends
    rw [body, statements_append]
    generalize statements (evaluate fuel) program .null state' = run at hends ⊢
    cases hends with
    | ok _ halike => exact ⟨_, halike, congrFun (statements_of_ne_nil hmore _ _) _⟩
  obtain ⟨after', halike', hsame⟩ := hjoined
  refine ⟨after', halike', ?_⟩
  unfold raiseFaults atBoundary
  rw [hsame]

/-- Whether a program is ended early does not depend on the log. -/
theorem ReturnsEarly.of_log {log : List LogEvent}
    (h : (interpreter.withLog log).ReturnsEarly fuel program) :
    interpreter.ReturnsEarly fuel program := by
  obtain ⟨value, after, hrun⟩ := h
  have halike : Alike False (interpreter.withLog log).started interpreter.started :=
    .withLog interpreter.world.log False.elim
  have hends := parallel_body (parallel_evaluate fuel) program _ _ halike
  rw [hrun] at hends
  unfold ReturnsEarly
  generalize body (evaluate fuel) program interpreter.started = run at hends ⊢
  cases hends with
  | error _ _ => exact ⟨value, _, rfl⟩

/-- After statements that came to their end, the next program is started in the state that they have
left, and the limit on the depth of calls is the same. -/
theorem next_started {after : EvalState} {result : Except Exit Value}
    (h : interpreter.started.Becomes after) :
    (report (result, after)).2.started = after ∧
      (report (result, after)).2.world.maxDepth = interpreter.world.maxDepth := by
  obtain ⟨hdepth, hlimit⟩ := h.same_depth
  refine ⟨?_, hlimit⟩
  show EvalState.mk after.scope { after.world with depth := 0 } = after
  rw [← show after.world.depth = 0 from hdepth]

/-- Whether the limit on the depth of calls is too high is a matter of this limit alone. -/
theorem depth_fault_of_same_limit {other : Interpreter}
    (h : other.world.maxDepth = interpreter.world.maxDepth) :
    other.depthFault? = interpreter.depthFault? := by
  unfold depthFault?
  rw [h]

/-- Running two sources as one, with a semicolon on a line between them, is running the one and then
the other. If the first gives no value, nothing of the second is run. Otherwise the second ends as
it does after the first, unless the first has been ended early. -/
theorem run_in_sequence (interpreter : Interpreter) (fuel : Nat) {first second : String}
    {program program₂ : Program} (hfirst : Program.Reads interpreter.world.maxDepth first program)
    (hsecond : Program.Reads interpreter.world.maxDepth second program₂) (hne : program₂ ≠ []) :
    ((∀ value, (interpreter.run fuel first).1 ≠ .value value) →
      SameRun (interpreter.run fuel (first ++ "\n;\n" ++ second)) (interpreter.run fuel first)) ∧
    (∀ value, (interpreter.run fuel first).1 = .value value →
      ¬ interpreter.ReturnsEarly fuel program →
      SameRun (interpreter.run fuel (first ++ "\n;\n" ++ second))
        ((interpreter.run fuel first).2.run fuel second)) := by
  cases hfault : interpreter.depthFault? with
  | some fault =>
      have hrun (source : String) : interpreter.run fuel source = (.fault fault, interpreter) := by
        unfold run
        rw [hfault]
      rw [hrun, hrun]
      exact ⟨fun _ => ⟨rfl, interpreter.world.log, rfl⟩, fun value hvalue => by cases hvalue⟩
  | none =>
      rw [run_eq hfault hfirst, run_eq hfault (hfirst.append hsecond), run_program_eq,
        run_program_eq]
      let logged := interpreter.withLog (.sourceRead first.length :: interpreter.world.log)
      have halike : Alike False logged.started (interpreter.withLog
          (.sourceRead (first ++ "\n;\n" ++ second).length :: interpreter.world.log)).started :=
        .withLog _ False.elim
      rcases hbody : body (evaluate fuel) program logged.started with ⟨exit | value, after⟩
      · -- The first source has been left, so nothing of the second is run.
        have hsame := same_run_of_ends (ends_of_error program₂ halike hbody)
        refine ⟨fun _ => hsame, fun value hvalue hearly => ?_⟩
        obtain ⟨result, rfl⟩ := returning_of_value hbody hvalue
        have hreturns : logged.ReturnsEarly fuel program := ⟨result, after, hbody⟩
        exact absurd hreturns.of_log hearly
      · have hrun : raiseFaults (atBoundary (body (evaluate fuel) program)) logged.started =
            (.ok value, after) := by
          unfold raiseFaults atBoundary
          rw [hbody]
        have hbecomes : logged.started.Becomes after := by
          have hblock := evaluate_becomes (fuel + 1) (.block program) logged.started
          rwa [show evaluate (fuel + 1) (.block program) logged.started = _ from hbody] at hblock
        obtain ⟨hstarted, hlimit⟩ := @next_started logged after (.ok value) hbecomes
        obtain ⟨after', ⟨log', -⟩, hjoined⟩ := ends_of_ok hne halike hbody
        rw [show raiseFaults _ (interpreter.withLog _).started = _ from hrun, hjoined]
        refine ⟨fun hnone => absurd rfl (hnone value), fun _ _ _ => ?_⟩
        generalize report (.ok value, after) = next at hstarted hlimit ⊢
        rw [← show next.2.world.maxDepth = interpreter.world.maxDepth from hlimit] at hsecond
        rw [run_eq ((depth_fault_of_same_limit hlimit).trans hfault) hsecond, run_program_eq]
        refine same_run_of_ends (parallel_program fuel program₂ _ _ ?_)
        show Alike False (next.2.started.withLog _) (after.withLog log')
        rw [hstarted]
        exact .withLog log' False.elim

/-- A conditional that might go on with `else`, and then the variable that it binds. -/
theorem run_in_sequence_conditional :
    let interpreter := Interpreter.fresh defaultMaxDepth (.ofInput "")
    let first := "if true \x7b x = 1 \x7d"
    let program := [Expr.ifThen (.bool true) [.assign "x" (.int 1)] none]
    Program.Reads defaultMaxDepth first program ∧
      Program.Reads defaultMaxDepth "x" [.name "x"] ∧
      (interpreter.run 9 first).1 = .value (.int 1) ∧ ¬ interpreter.ReturnsEarly 9 program ∧
      SameRun (interpreter.run 9 (first ++ "\n;\n" ++ "x"))
        ((interpreter.run 9 first).2.run 9 "x") := by
  intro interpreter first program
  have htokens : Token.tokenize first = .ok
      [⟨.keyword, "if", 0, 2, 1⟩, ⟨.keyword, "true", 3, 7, 1⟩, ⟨.lbrace, "\x7b", 8, 9, 1⟩,
       ⟨.name, "x", 10, 11, 1⟩, ⟨.op, "=", 12, 13, 1⟩, ⟨.int, "1", 14, 15, 1⟩,
       ⟨.rbrace, "\x7d", 16, 17, 1⟩, ⟨.eof, "", 17, 17, 1⟩] := by
    decide +kernel
  have htokens₂ : Token.tokenize "x" = .ok [⟨.name, "x", 0, 1, 1⟩, ⟨.eof, "", 1, 1, 1⟩] := by
    decide +kernel
  have hfirst : Program.Reads defaultMaxDepth first program := ⟨_, htokens, rfl⟩
  have hsecond : Program.Reads defaultMaxDepth "x" [.name "x"] := ⟨_, htokens₂, rfl⟩
  have hvalue : (interpreter.run 9 first).1 = .value (.int 1) := by
    have hfault : interpreter.depthFault? = none := if_pos (by decide)
    rw [run_eq hfault hfirst]
    rfl
  have hreturn : ¬ interpreter.ReturnsEarly 9 program := by
    rintro ⟨value, after, hrun⟩
    have hok : (body (evaluate 9) program interpreter.started).1 = .ok (.int 1) := rfl
    rw [hrun] at hok
    cases hok
  exact ⟨hfirst, hsecond, hvalue, hreturn,
    (run_in_sequence interpreter 9 hfirst hsecond (by simp)).2 _ hvalue hreturn⟩

end Interpreter

end Script
