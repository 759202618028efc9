import Script.Outcome
import Script.Proofs.Eval.Account

/-!
# Histories

`Interpreter.History` says which applications the programs have made that have led to an
interpreter, one after the other from a fresh one. A property of the heap that all of these keep
holds in the interpreter (`Interpreter.History.kept`), and it holds in all states through which the
run of another source passes if the applications of that source keep it too
(`Interpreter.Passes.kept`).
-/

namespace Script

open Eval

/-- What holds of heaps in the beginning and can be lost in an application only. -/
structure Heap.Guarded (keeps : Heap → Prop) : Prop where
  empty (maxDepth : Nat) : keeps (.empty maxDepth)
  congr {heap other : Heap} :
    keeps heap → other.lists = heap.lists → other.errors = heap.errors → keeps other
  changes {heap after : Heap} : heap.Changes .none after → keeps heap → keeps after

/-- An application loses the property. -/
structure Application.Loses (keeps : Heap → Prop) (application : Application) (heap : Heap) :
    Prop where
  before : keeps heap
  after : ∃ after, application.effect heap = .ok after ∧ ¬keeps after

namespace Eval

variable {keeps : Heap → Prop} {fuel : Nat} {expr : Expr} {state : EvalState} {run : Eval Value}

/-- Which exits are taken does not matter. -/
theorem watched_of_guarded (h : Heap.Guarded keeps) : Watched keeps fun _ => True :=
  ⟨h.congr, h.changes, fun _ => trivial, fun _ => trivial, fun _ => trivial⟩

theorem all_fit (h : ∀ application heap, Applied fuel expr state application heap →
    ¬application.Loses keeps heap) : AllFit keeps (fun _ => True) fuel expr state := by
  refine fun application heap happlied hheap => ⟨fun {after} heffect => ?_, fun _ => trivial⟩
  by_contra hlost
  exact h application heap happlied ⟨hheap, after, heffect, hlost⟩

/-- Making an error of a jump keeps the property. -/
theorem at_boundary_keeps (hguarded : Heap.Guarded keeps) (h : keeps (run state).2.world.heap) :
    keeps (atBoundary run state).2.world.heap := by
  unfold atBoundary
  rcases hrun : run state with ⟨result, after⟩
  rw [hrun] at h
  split
  · rename_i heq
    cases heq
    exact h
  · rename_i heq
    cases heq
    exact hguarded.changes (.newError _ _ _) h
  · exact h

end Eval

namespace Interpreter

variable {interpreter : Interpreter} {keeps : Heap → Prop} {fuel : Nat} {source : String}
  {program : Program} {application : Application} {heap : Heap} {made : Application → Heap → Prop}

/-- The application is made in the course of a program. -/
def Applies (interpreter : Interpreter) (fuel : Nat) (program : Program)
    (application : Application) (heap : Heap) : Prop :=
  Applied (fuel + 1) (.block program) interpreter.started application heap

/-- The interpreters that programs lead to, with the applications that have been made on the way. A
source that is no program leads to a line in the log or to an error. -/
inductive History : Interpreter → (Application → Heap → Prop) → Prop where
  | fresh (maxDepth : Nat) (console : Console) :
      History (fresh maxDepth console) fun _ _ => False
  | log {interpreter : Interpreter} {made : Application → Heap → Prop} (event : LogEvent) :
      History interpreter made → History (interpreter.record event) made
  | throwNew {interpreter : Interpreter} {made : Application → Heap → Prop} (kind : ErrorKind)
      (arguments : List String) :
      History interpreter made → History (interpreter.throwNew kind arguments).2 made
  | runProgram {interpreter : Interpreter} {made : Application → Heap → Prop} (fuel : Nat)
      (program : Program) :
      History interpreter made →
        History (interpreter.runProgram fuel program).2 fun application heap =>
          made application heap ∨ interpreter.Applies fuel program application heap

/-- Every reachable interpreter has a history. -/
theorem Reachable.history (h : interpreter.Reachable) : ∃ made, interpreter.History made := by
  induction h with
  | fresh maxDepth console => exact ⟨_, .fresh maxDepth console⟩
  | log event _ ih =>
      obtain ⟨made, hmade⟩ := ih
      exact ⟨made, hmade.log event⟩
  | throwNew kind arguments _ ih =>
      obtain ⟨made, hmade⟩ := ih
      exact ⟨made, hmade.throwNew kind arguments⟩
  | runProgram fuel program _ ih =>
      obtain ⟨made, hmade⟩ := ih
      exact ⟨_, hmade.runProgram fuel program⟩

/-- Only a reachable interpreter has one. -/
theorem History.reachable (h : interpreter.History made) : interpreter.Reachable := by
  induction h with
  | fresh maxDepth console => exact .fresh maxDepth console
  | log event _ ih => exact ih.log event
  | throwNew kind arguments _ ih => exact ih.throwNew kind arguments
  | runProgram fuel program _ ih => exact ih.runProgram fuel program

/-- The source is run, as a program. -/
structure Starts (interpreter : Interpreter) (source : String) (program : Program) : Prop where
  limit : interpreter.world.maxDepth ≤ highestMaxDepth
  read : ∃ tokens, Token.tokenize source = .ok tokens ∧
    Program.ofTokensWithin true (sourceNestingLimit interpreter.world.maxDepth) tokens =
      .ok program

/-- The application is made in the course of the run of a source. -/
inductive SourceApplies (interpreter : Interpreter) (fuel : Nat) (source : String)
    (application : Application) (heap : Heap) : Prop where
  | intro {program : Program} (starts : interpreter.Starts source program)
      (applies : (interpreter.record (.sourceRead source.length)).Applies fuel program
        application heap)

/-- The states through which the run of a source passes: those in which expressions are evaluated,
and the one that it leaves. -/
inductive Passes (interpreter : Interpreter) (fuel : Nat) (source : String) :
    EvalState → Prop where
  | during {program : Program} {rest : Nat} {last : Expr} {state : EvalState}
      (starts : interpreter.Starts source program)
      (includes : Includes (fuel + 1) (.block program)
        (interpreter.record (.sourceRead source.length)).started rest last state) :
      Passes interpreter fuel source state
  | after : Passes interpreter fuel source (interpreter.run fuel source).2.state

/-- A run either starts a program, or leaves the heap alone but for a new error. -/
theorem run_cases (interpreter : Interpreter) (fuel : Nat) (source : String) :
    (∃ program, interpreter.Starts source program ∧
      interpreter.run fuel source =
        (interpreter.record (.sourceRead source.length)).runProgram fuel program) ∨
    interpreter.world.heap.Changes .none (interpreter.run fuel source).2.world.heap := by
  unfold run depthFault?
  by_cases hlimit : interpreter.world.maxDepth ≤ highestMaxDepth
  · rw [if_pos hlimit]
    unfold runSource
    dsimp only
    cases htokens : Token.tokenize source with
    | error error => exact .inr (.refl _)
    | ok tokens =>
        dsimp only
        cases hprogram : Program.ofTokensWithin true
          (sourceNestingLimit interpreter.world.maxDepth) tokens with
        | ok program => exact .inl ⟨program, ⟨hlimit, tokens, htokens, hprogram⟩, rfl⟩
        | error failure =>
            cases failure with
            | wrong error => exact .inr (.refl _)
            | tooDeep => exact .inr (.newError _ _ _)
  · rw [if_neg hlimit]
    exact .inr (.refl _)

/-- The exit code is one if the error that ends a run can be shown. -/
theorem run_script_of_format_chain {frames : Nat} {error : ProgramError} {after : Interpreter}
    {chain : String} (hrun : interpreter.run fuel source = (.failed error, after))
    (hchain : error.formatChainWithin after.world.heap frames = .ok chain) :
    (interpreter.runScriptWithin frames fuel source).ending = .code 1 := by
  unfold runScriptWithin
  rw [hrun]
  dsimp only
  rw [hchain]

section Kept

variable (hguarded : Heap.Guarded keeps)
include hguarded

/-- Making an error of a fault keeps the property. -/
theorem raise_faults_keeps {run : Eval Value} {state : EvalState}
    (h : keeps (run state).2.world.heap) : keeps (raiseFaults run state).2.world.heap := by
  unfold raiseFaults
  rcases hrun : run state with ⟨result, after⟩
  rw [hrun] at h
  split
  · rename_i heq
    cases heq
    exact hguarded.changes (.newError _ _ _) h
  · rename_i heq
    cases heq
    exact hguarded.changes (.newError _ _ _) h
  · rename_i heq
    cases heq
    exact hguarded.changes (.newError _ _ _) h
  · exact h

/-- A program keeps a property if no application that it makes loses it. -/
theorem run_program_keeps (hheap : keeps interpreter.world.heap)
    (h : ∀ application heap, interpreter.Applies fuel program application heap →
      ¬application.Loses keeps heap) :
    keeps (interpreter.runProgram fuel program).2.world.heap := by
  have hleaves : Leaves 0 keeps (fun _ => True)
      (evaluate (fuel + 1) (.block program) interpreter.started) :=
    evaluate_leaves (watched_of_guarded hguarded) hheap (all_fit h)
  have hstate := interpreter.state_run_program fuel program
  show keeps (interpreter.runProgram fuel program).2.state.world.heap
  rw [hstate]
  exact raise_faults_keeps hguarded (at_boundary_keeps hguarded hleaves.heap)

/-- The property holds in an interpreter if no application in its history has lost it. -/
theorem History.kept (hhistory : interpreter.History made)
    (h : ∀ application heap, made application heap → ¬application.Loses keeps heap) :
    keeps interpreter.world.heap := by
  induction hhistory with
  | fresh maxDepth => exact hguarded.empty maxDepth
  | log event _ ih => exact ih h
  | throwNew kind arguments _ ih => exact hguarded.changes (.newError _ _ _) (ih h)
  | runProgram fuel program _ ih =>
      refine run_program_keeps hguarded ?_ fun application heap happlies =>
        h application heap (.inr happlies)
      exact ih fun application heap hmade => h application heap (.inl hmade)

/-- The property holds in all states that the run of a source passes through if it holds before and
no application that is made loses it. -/
theorem Passes.kept {state : EvalState} (hpasses : interpreter.Passes fuel source state)
    (hheap : keeps interpreter.world.heap)
    (h : ∀ application heap, interpreter.SourceApplies fuel source application heap →
      ¬application.Loses keeps heap) : keeps state.world.heap := by
  cases hpasses with
  | during hstarts hincludes =>
      exact hincludes.kept (watched_of_guarded hguarded) hheap
        (all_fit fun application heap happlied => h application heap ⟨hstarts, happlied⟩)
  | after =>
      obtain ⟨program, hstarts, hrun⟩ | hchanges := interpreter.run_cases fuel source
      · rw [hrun]
        exact run_program_keeps hguarded hheap fun application heap happlies =>
          h application heap ⟨hstarts, happlies⟩
      · exact hguarded.changes hchanges hheap

/-- Either an application on the way has lost the property, or it holds in all states that the run
of a source passes through. -/
theorem History.lost_or_kept (hhistory : interpreter.History made) (fuel : Nat) (source : String) :
    (∃ application heap,
      (made application heap ∨ interpreter.SourceApplies fuel source application heap) ∧
        application.Loses keeps heap) ∨
    ∀ state, interpreter.Passes fuel source state → keeps state.world.heap := by
  by_cases hlost : ∃ application heap,
      (made application heap ∨ interpreter.SourceApplies fuel source application heap) ∧
        application.Loses keeps heap
  · exact .inl hlost
  · refine .inr fun state hpasses => hpasses.kept hguarded ?_ ?_
    · exact hhistory.kept hguarded fun application heap hmade hloses =>
        hlost ⟨application, heap, .inl hmade, hloses⟩
    · exact fun application heap happlies hloses =>
        hlost ⟨application, heap, .inr happlies, hloses⟩

end Kept

end Interpreter

end Script
