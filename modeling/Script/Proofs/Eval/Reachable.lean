import Mathlib.Tactic.ByContra
import Script.Interpreter
import Script.Proofs.Eval.Rules

/-!
# Reachable states

An interpreter is reachable if running programs, one after the other, leads to it from a fresh
one. While a program runs, its expressions are evaluated in many states, with scopes of their
own: `Eval.Visits` says which. The states that occur are those between programs and those that
programs visit, and `EvalState.Invariant.of_occurs` is the principle by which something is shown for
all of them.
-/

namespace Script

namespace EvalState

/-- States that are reached from a state that is reached. -/
theorem Reaches.trans {first second third : EvalState} (h : first.Reaches second)
    (hnext : second.Reaches third) : first.Reaches third := by
  induction hnext with
  | here => exact h
  | later _ hbecomes ih => exact ih.later hbecomes
  | call _ henters ih => exact ih.call henters
  | comprehension _ hbecomes ih => exact ih.comprehension hbecomes

end EvalState

namespace Eval

/-- The evaluation of an expression asks what a part of it comes to in some state: if that were
something else, so would be the outcome. -/
def Consults (fuel : Nat) (expr : Expr) (state : EvalState) (part : Expr) (inner : EvalState) :
    Prop :=
  ∃ other : Evaluator,
    (∀ asked current, asked ≠ part ∨ current ≠ inner →
      other asked current = evaluate fuel asked current) ∧
    step other fuel expr state ≠ step (evaluate fuel) fuel expr state

/-- The states in which expressions are evaluated in the course of an evaluation. -/
inductive Visits : Nat → Expr → EvalState → EvalState → Prop where
  | here (fuel : Nat) (expr : Expr) (state : EvalState) : Visits fuel expr state state
  | inside {fuel : Nat} {expr part : Expr} {state inner last : EvalState} :
      Consults fuel expr state part inner → Visits fuel part inner last →
        Visits (fuel + 1) expr state last

variable {fuel : Nat} {expr part : Expr} {state inner : EvalState}

/-- A part is evaluated only in states that are reached. -/
theorem Consults.reaches (h : Consults fuel expr state part inner) : state.Reaches inner := by
  -- An evaluation that differs only in states that are not reached comes to the same.
  by_contra hunreached
  obtain ⟨other, hother, hdiffers⟩ := h
  have hagree (asked : Expr) : Agree state (evaluate fuel asked) (other asked) := by
    intro current hreached
    have hne : current ≠ inner := fun heq => hunreached (heq ▸ hreached)
    exact ⟨(hother asked current (.inr hne)).symm, evaluate_becomes fuel asked current⟩
  exact hdiffers (agree_step hagree fuel expr state .here).1.symm

/-- All expressions are evaluated in states that are reached. -/
theorem Visits.reaches (h : Visits fuel expr state inner) : state.Reaches inner := by
  induction h with
  | here => exact .here
  | inside hconsults _ ih => exact hconsults.reaches.trans ih

open Classical in
/-- The evaluation that runs out of fuel when it comes to a part in a state, and ends in a state
that can be told apart. -/
noncomputable def interrupted (ev : Evaluator) (part : Expr) (inner mark : EvalState) :
    Evaluator :=
  fun asked current =>
    if asked = part ∧ current = inner then (.error .outOfFuel, mark) else ev asked current

theorem interrupted_here (ev : Evaluator) (part : Expr) (inner mark : EvalState) :
    interrupted ev part inner mark part inner = (.error .outOfFuel, mark) :=
  if_pos ⟨rfl, rfl⟩

theorem interrupted_elsewhere {ev : Evaluator} {mark current : EvalState} {asked : Expr}
    (h : asked ≠ part ∨ current ≠ inner) :
    interrupted ev part inner mark asked current = ev asked current :=
  if_neg fun hsame => h.elim (· hsame.1) (· hsame.2)

/-- Statements that come to the interruption are interrupted. -/
theorem statements_interrupted {ev : Evaluator} {mark : EvalState} {done rest : List Expr}
    {last value : Value} (h : statements ev done last state = (.ok value, inner)) :
    statements (interrupted ev part inner mark) (done ++ part :: rest) last state =
      (.error .outOfFuel, mark) := by
  induction done generalizing last state with
  | nil =>
      cases h
      show (interrupted ev part inner mark part >>= _) inner = _
      rw [run_bind, interrupted_here]
  | cons expr done ih =>
      change (ev expr >>= statements ev done) state = _ at h
      show (interrupted ev part inner mark expr >>= _) state = _
      rw [run_bind] at h ⊢
      -- The same part may have been evaluated in the same state before.
      by_cases hhere : expr = part ∧ state = inner
      · rw [hhere.1, hhere.2, interrupted_here]
      · rw [interrupted_elsewhere (not_and_or.mp hhere)]
        rcases hrun : ev expr state with ⟨exit | result, after⟩
        · rw [hrun] at h
          cases h
        · rw [hrun] at h
          exact ih h

/-- A block asks for each of its statements in the state that those before it leave. -/
theorem consults_statement {done rest : List Expr} {value : Value}
    (h : body (evaluate fuel) done state = (.ok value, inner)) :
    Consults fuel (.block (done ++ part :: rest)) state part inner := by
  let after := (body (evaluate fuel) (done ++ part :: rest) state).2
  let mark : EvalState :=
    { after with world := { after.world with depth := after.world.depth + 1 } }
  refine ⟨interrupted (evaluate fuel) part inner mark, ?_, ?_⟩
  · exact fun asked current hne => interrupted_elsewhere hne
  · intro hsame
    -- Both runs of the block would end at the same depth.
    have hmark : mark = after :=
      (congrArg Prod.snd (statements_interrupted h)).symm.trans (congrArg Prod.snd hsame)
    have hdepth : after.world.depth + 1 = after.world.depth := congrArg (·.world.depth) hmark
    omega

/-- Statements are asked for one after the other, each in the state that those before it leave. -/
theorem statements_congr {ev other : Evaluator} {exprs : List Expr} {last : Value}
    (h : ∀ done part rest value inner, exprs = done ++ part :: rest →
      statements ev done last state = (.ok value, inner) → other part inner = ev part inner) :
    statements other exprs last state = statements ev exprs last state := by
  induction exprs generalizing last state with
  | nil => rfl
  | cons expr exprs ih =>
      show (other expr >>= statements other exprs) state = (ev expr >>= statements ev exprs) state
      rw [run_bind, run_bind, h [] expr exprs last state rfl rfl]
      rcases hrun : ev expr state with ⟨exit | result, after⟩
      · rfl
      · refine ih fun done part rest value inner hexprs hdone => ?_
        refine h (expr :: done) part rest value inner (congrArg (expr :: ·) hexprs) ?_
        show (ev expr >>= statements ev done) state = _
        rw [run_bind, hrun]
        exact hdone

/-- A block asks for nothing but its statements, each in the state that those before it leave. -/
theorem Consults.of_block {exprs : List Expr} (h : Consults fuel (.block exprs) state part inner) :
    ∃ done rest value, exprs = done ++ part :: rest ∧
      body (evaluate fuel) done state = (.ok value, inner) := by
  by_contra hnone
  obtain ⟨other, hother, hdiffers⟩ := h
  refine hdiffers (statements_congr fun done asked rest value current hexprs hdone => ?_)
  refine hother asked current (not_and_or.mp ?_)
  rintro ⟨rfl, rfl⟩
  exact hnone ⟨done, rest, value, hexprs, hdone⟩

end Eval

namespace Interpreter

/-- The state in which a program is started. -/
def started (interpreter : Interpreter) : EvalState :=
  ⟨interpreter.globals, { interpreter.world with depth := 0 }⟩

/-- Turning a fault into an error makes that error at most. -/
theorem raise_faults_becomes {run : Eval Value} {state : EvalState}
    (h : state.Becomes (run state).2) : state.Becomes (raiseFaults run state).2 := by
  have hnew (kind : ErrorKind) (arguments : List String) (after : EvalState) :
      after.Becomes
        ((Eval.perform (Action.newError kind arguments) >>= fun error =>
          throw (.thrown error) : Eval Value) after).2 :=
    .operation after (.newError _ _ _)
  unfold raiseFaults
  rcases hrun : run state with ⟨result, after⟩
  rw [hrun] at h
  split
  · rename_i hfault
    cases hfault
    exact h.trans (hnew _ _ after)
  · rename_i hfault
    cases hfault
    exact h.trans (hnew _ _ after)
  · rename_i hfault
    cases hfault
    exact h.trans (hnew _ _ after)
  · exact h

/-- The state between programs. -/
def state (interpreter : Interpreter) : EvalState :=
  ⟨interpreter.globals, interpreter.world⟩

/-- The state that a program leaves is the state after its statements, faults made errors. -/
theorem state_run_program (interpreter : Interpreter) (fuel : Nat) (program : Program) :
    (interpreter.runProgram fuel program).2.state =
      (raiseFaults (Eval.atBoundary (Eval.body (Eval.evaluate fuel) program))
        interpreter.started).2 := by
  unfold runProgram
  dsimp only
  split
  rename_i result after hrun
  have hafter :
      raiseFaults (Eval.atBoundary (Eval.body (Eval.evaluate fuel) program))
        interpreter.started = (result, after) := hrun
  rw [hafter]
  split <;> rfl

/-- What a program makes of an interpreter. -/
theorem run_program_becomes (interpreter : Interpreter) (fuel : Nat) (program : Program) :
    interpreter.started.Becomes (interpreter.runProgram fuel program).2.state := by
  rw [state_run_program]
  refine raise_faults_becomes (Eval.at_boundary_becomes ?_)
  exact Eval.evaluate_becomes (fuel + 1) (.block program) interpreter.started

/-- The interpreters that running programs can lead to. A source that is no program leads to a
line in the log or to an error. -/
inductive Reachable : Interpreter → Prop where
  | fresh (maxDepth : Nat) (console : Console) : Reachable (fresh maxDepth console)
  | log {interpreter : Interpreter} (event : LogEvent) :
      Reachable interpreter →
        Reachable
          { interpreter with
            world := { interpreter.world with log := event :: interpreter.world.log } }
  | throwNew {interpreter : Interpreter} (kind : ErrorKind) (arguments : List String) :
      Reachable interpreter → Reachable (interpreter.throwNew kind arguments).2
  | runProgram {interpreter : Interpreter} (fuel : Nat) (program : Program) :
      Reachable interpreter → Reachable (interpreter.runProgram fuel program).2

/-- Running any source leads to a reachable interpreter. -/
theorem Reachable.run {interpreter : Interpreter} (h : interpreter.Reachable) (fuel : Nat)
    (source : String) : (interpreter.run fuel source).2.Reachable := by
  have hlogged := h.log (.sourceRead source.length)
  unfold Interpreter.run runSource
  split
  · split
    · exact hlogged
    · dsimp only
      split
      · exact hlogged.runProgram fuel _
      · exact hlogged
      · exact hlogged.throwNew _ _
  · exact h

end Interpreter

/-- The states that occur between programs, and those in which programs evaluate expressions. -/
inductive EvalState.Occurs : EvalState → Prop where
  | between {interpreter : Interpreter} : interpreter.Reachable → Occurs interpreter.state
  | during {interpreter : Interpreter} {fuel : Nat} {program : Program} {state : EvalState} :
      interpreter.Reachable →
        Eval.Visits (fuel + 1) (.block program) interpreter.started state → Occurs state

/-- The state that statements leave occurs, since another statement may follow. -/
theorem EvalState.Occurs.after_statements {interpreter : Interpreter} {fuel : Nat}
    {done : List Expr} {value : Value} {state : EvalState} (h : interpreter.Reachable)
    (hdone : Eval.body (Eval.evaluate fuel) done interpreter.started = (.ok value, state)) :
    state.Occurs := by
  have hconsults :
      Eval.Consults fuel (.block (done ++ [.null])) interpreter.started .null state :=
    Eval.consults_statement hdone
  exact .during h (.inside hconsults (.here _ _ _))

/-- What holds at first and is kept by all that evaluation does. -/
structure EvalState.Invariant (holds : EvalState → Prop) : Prop where
  fresh (maxDepth : Nat) (console : Console) : holds (Interpreter.fresh maxDepth console).state
  started {interpreter : Interpreter} : holds interpreter.state → holds interpreter.started
  becomes {state after : EvalState} : state.Becomes after → holds state → holds after
  enters {state entered : EvalState} : state.Enters entered → holds state → holds entered
  copies {state middle : EvalState} :
    state.Becomes middle → holds state → holds { middle with scope := state.scope }

namespace EvalState.Invariant

variable {holds : EvalState → Prop} (hinvariant : Invariant holds)
include hinvariant

/-- An invariant holds in every state that is reached from one in which it holds. -/
theorem of_reaches {start state : EvalState} (h : start.Reaches state) (hstart : holds start) :
    holds state := by
  induction h with
  | here => exact hstart
  | later _ hbecomes ih => exact hinvariant.becomes hbecomes ih
  | call _ henters ih => exact hinvariant.enters henters ih
  | comprehension _ hbecomes ih => exact hinvariant.copies hbecomes ih

/-- An invariant holds in every reachable interpreter. -/
theorem of_reachable {interpreter : Interpreter} (h : interpreter.Reachable) :
    holds interpreter.state := by
  induction h with
  | fresh maxDepth console => exact hinvariant.fresh maxDepth console
  | log event _ ih => exact hinvariant.becomes (.log _ event) ih
  | throwNew kind arguments _ ih =>
      exact hinvariant.becomes (.operation _ (.newError _ kind arguments)) ih
  | runProgram fuel program _ ih =>
      exact hinvariant.becomes (Interpreter.run_program_becomes _ fuel program)
        (hinvariant.started ih)

/-- An invariant holds in every state that occurs. -/
theorem of_occurs {state : EvalState} (h : state.Occurs) : holds state := by
  cases h with
  | between hreachable => exact hinvariant.of_reachable hreachable
  | during hreachable hvisits =>
      exact hinvariant.of_reaches hvisits.reaches
        (hinvariant.started (hinvariant.of_reachable hreachable))

end EvalState.Invariant

end Script
