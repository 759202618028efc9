import Script.Outcome
import Script.Proofs.Builtin.Escapes
import Script.Proofs.Eval.Account
import Script.Proofs.Eval.Streams

/-!
# How runs end

A run ends with a value or an error of the language, unless the machine reports a fault that the
language has no error for. `Interpreter.RunEnds` lists how a run can end and what is the case then:
a limit on the depth of calls that is too high, a power of complex numbers that cannot be computed,
a value whose text would have too many digits, or a console that breaks; or the run has run out of
fuel. No jump and no other fault leaves a run.
-/

namespace Script

namespace Eval

variable {fuel : Nat} {expr : Expr} {state : EvalState} {run : Eval Value}

/-- A fault without an error of its own, and not that of a stream, has been met by an
application. -/
theorem fault_applied {fault : Fault} (h : (evaluate fuel expr state).1 = .error (.fault fault))
    (hfault : fault.hasError = false) (hstream : ∀ stream, fault ≠ .stream stream) :
    ∃ application heap, Applied fuel expr state application heap ∧
      application.effect heap = .error (.fault fault) := by
  let exits (exit : Exit) : Prop := exit = .fault fault →
    ∃ application heap, Applied fuel expr state application heap ∧
      application.effect heap = .error (.fault fault)
  have hwatched : Watched (fun _ => True) exits := by
    refine ⟨fun _ _ _ => trivial, fun _ _ => trivial, ?_, ?_, ?_⟩
    · intro other hhas heq
      cases heq
      rw [hfault] at hhas
      cases hhas
    · exact fun stream heq => (hstream stream (Exit.fault.inj heq).symm).elim
    · exact fun hexit heq => (hexit fault heq).elim
  have hfit : AllFit (fun _ => True) exits fuel expr state := by
    refine fun application heap happlied _ => ⟨fun _ => trivial, ?_⟩
    intro other heffect heq
    cases heq
    exact ⟨application, heap, happlied, heffect⟩
  exact (evaluate_leaves hwatched trivial hfit).exit h rfl

/-- At the end of a call or program there are no jumps left. -/
theorem at_boundary_exit {exit : Exit} (h : (atBoundary run state).1 = .error exit) :
    (∃ error, exit = .thrown error) ∨ (run state).1 = .error exit ∧ ¬exit.Jumps := by
  unfold atBoundary at h
  rcases hrun : run state with ⟨result, after⟩
  rw [hrun] at h
  cases result with
  | ok value => cases h
  | error taken =>
      cases taken with
      | jump jump =>
          cases jump with
          | returning value => cases h
          | breaking | continuing =>
              cases h
              exact .inl ⟨_, rfl⟩
      | thrown error =>
          cases h
          exact .inl ⟨error, rfl⟩
      | fault | outOfFuel =>
          cases h
          exact .inr ⟨rfl, id⟩

end Eval

namespace Interpreter

/-- How a program can end that is started in an interpreter. -/
inductive ProgramEnds (interpreter : Interpreter) (fuel : Nat) (program : Program) :
    RunResult → Prop where
  | value (value : Value) : ProgramEnds interpreter fuel program (.value value)
  | failed (error : ProgramError) : ProgramEnds interpreter fuel program (.failed error)
  /-- A power of numbers was to be computed, one of them complex, that has no value. -/
  | zeroPower {left right : Value} {heap : Heap}
      (happlied : Eval.Applied (fuel + 1) (.block program) interpreter.started
        (.operator .power left right) heap)
      (hpower : left.NoPower right) :
      ProgramEnds interpreter fuel program (.fault .zeroPower)
  /-- An operation was applied to a value whose text has too many digits. -/
  | longInteger {application : Application} {heap : Heap} {value : Value}
      (happlied : Eval.Applied (fuel + 1) (.block program) interpreter.started application heap)
      (hfault : application.effect heap = .error (.fault .longInteger))
      (hvalue : value ∈ application.operands) (hlong : heap.ShowsLong value) :
      ProgramEnds interpreter fuel program (.fault .longInteger)
  /-- The console breaks with the fault. -/
  | stream {fault : StreamFault} (hbreaks : interpreter.world.console.Breaks fault) :
      ProgramEnds interpreter fuel program (.fault (.stream fault))
  | outOfFuel
      (h : (Eval.body (Eval.evaluate fuel) program interpreter.started).1 = .error .outOfFuel) :
      ProgramEnds interpreter fuel program .outOfFuel

/-- How a run of a source can end. -/
inductive RunEnds (interpreter : Interpreter) (fuel : Nat) (source : String) :
    RunResult → Prop where
  /-- The limit on the depth of calls is too high for the machine. -/
  | depth (hlimit : highestMaxDepth < interpreter.world.maxDepth) (message : String) :
      RunEnds interpreter fuel source (.fault (.overflow message))
  /-- The source is no program, or is nested too deeply. -/
  | unread (error : ProgramError) : RunEnds interpreter fuel source (.failed error)
  | program {tokens : List Token} {program : Program} {result : RunResult}
      (hlimit : interpreter.world.maxDepth ≤ highestMaxDepth)
      (htokens : Token.tokenize source = .ok tokens)
      (hprogram : Program.ofTokensWithin true (sourceNestingLimit interpreter.world.maxDepth)
        tokens = .ok program)
      (hends : (interpreter.record (.sourceRead source.length)).ProgramEnds fuel program result) :
      RunEnds interpreter fuel source result

theorem raise_faults_exit {run : Eval Value} {state : EvalState} {exit : Exit}
    (h : (raiseFaults run state).1 = .error exit) :
    (∃ error, exit = .thrown error) ∨
      (run state).1 = .error exit ∧ ∀ fault, exit = .fault fault → fault.hasError = false := by
  unfold raiseFaults at h
  rcases hrun : run state with ⟨result, after⟩
  rw [hrun] at h
  cases result with
  | ok value => cases h
  | error taken =>
      cases taken with
      | fault fault =>
          cases fault with
          | recursion | memory | overflow =>
              cases h
              exact .inl ⟨_, rfl⟩
          | zeroPower | longInteger | stream =>
              cases h
              exact .inr ⟨rfl, fun _ heq => by cases heq; rfl⟩
      | thrown error =>
          cases h
          exact .inl ⟨error, rfl⟩
      | jump | outOfFuel =>
          cases h
          exact .inr ⟨rfl, nofun⟩

/-- A program ends in one of these ways. -/
theorem run_program_ends (interpreter : Interpreter) (fuel : Nat) (program : Program) :
    interpreter.ProgramEnds fuel program (interpreter.runProgram fuel program).1 := by
  let run := Eval.atBoundary (Eval.body (Eval.evaluate fuel) program)
  have hexit {exit : Exit} (h : (raiseFaults run interpreter.started).1 = .error exit) :
      (∃ error, exit = .thrown error) ∨
        (Eval.body (Eval.evaluate fuel) program interpreter.started).1 = .error exit ∧
          ¬exit.Jumps ∧ ∀ fault, exit = .fault fault → fault.hasError = false := by
    obtain hthrown | ⟨hrun, hfault⟩ := raise_faults_exit h
    · exact .inl hthrown
    · obtain hthrown | ⟨hbody, hjump⟩ := Eval.at_boundary_exit hrun
      · exact .inl hthrown
      · exact .inr ⟨hbody, hjump, hfault⟩
  unfold runProgram
  dsimp only
  split
  rename_i result after hrun
  have hresult : (raiseFaults run interpreter.started).1 = result := congrArg Prod.fst hrun
  cases result with
  | ok value => exact .value value
  | error exit =>
      obtain ⟨error, rfl⟩ | ⟨hbody, hjump, hfault⟩ := hexit hresult
      · exact .failed (.thrown error)
      cases exit with
      | thrown error => exact .failed (.thrown error)
      | jump => exact (hjump trivial).elim
      | outOfFuel => exact .outOfFuel hbody
      | fault fault =>
          have hblock :
              (Eval.evaluate (fuel + 1) (.block program) interpreter.started).1 =
                .error (.fault fault) :=
            hbody
          cases fault with
          | recursion | memory | overflow => cases hfault _ rfl
          | zeroPower =>
              obtain ⟨application, heap, happlied, heffect⟩ := Eval.fault_applied hblock rfl nofun
              obtain ⟨left, right, rfl, hpower⟩ := Application.no_power heffect
              exact .zeroPower happlied hpower
          | longInteger =>
              obtain ⟨application, heap, happlied, heffect⟩ := Eval.fault_applied hblock rfl nofun
              obtain ⟨value, hvalue, hlong⟩ := Application.long_operand heffect
              exact .longInteger happlied heffect hvalue hlong
          | stream fault =>
              have hstreams := Eval.evaluate_streams interpreter.world.console (fuel + 1)
                (.block program) interpreter.started (.refl _)
              exact .stream (hstreams.breaks hblock)

/-- Every run of a source ends in one of these ways. -/
theorem run_ends (interpreter : Interpreter) (fuel : Nat) (source : String) :
    interpreter.RunEnds fuel source (interpreter.run fuel source).1 := by
  unfold run depthFault?
  by_cases hlimit : interpreter.world.maxDepth ≤ highestMaxDepth
  · rw [if_pos hlimit]
    unfold runSource
    dsimp only
    cases htokens : Token.tokenize source with
    | error error => exact .unread (.lex error)
    | ok tokens =>
        dsimp only
        cases hprogram : Program.ofTokensWithin true
          (sourceNestingLimit interpreter.world.maxDepth) tokens with
        | ok program => exact .program hlimit htokens hprogram (run_program_ends _ fuel program)
        | error failure =>
            cases failure with
            | wrong error => exact .unread (.parse error)
            | tooDeep => exact .unread (.thrown _)
  · rw [if_neg hlimit]
    exact .depth (Nat.lt_of_not_le hlimit) _

/-- A fresh interpreter with a limit on the depth of calls that is too high for the machine does not
even run a number: the fault is left as it is. -/
theorem depth_limit_overflows :
    let interpreter := fresh 100000000 (Console.ofInput "")
    interpreter.Reachable ∧
      (interpreter.run 10 "1").1 =
        .fault (.overflow "Python int too large to convert to C int") :=
  ⟨.fresh _ _, rfl⟩

end Interpreter

end Script
