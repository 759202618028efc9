import Script.Proofs.Eval.Translation

/-!
# Types have no effect

A binding may be written with a type. `Interpreter.run_program_without_types` says that taking all
types out of a program changes nothing that can be observed: the run ends in the same way, with the
same value or error, and leaves the same interpreter, up to the types that are still in the bodies
of functions.
-/

namespace Script

/-- The interpreter with the types taken out of the bodies of all functions. -/
def Interpreter.eraseTypes (interpreter : Interpreter) : Interpreter :=
  { interpreter with
    world := { interpreter.world with
      heap := interpreter.world.heap.mapBodies Expr.eraseTypes } }

/-- Taking out types, with the limit on the depth of calls as it is. -/
def Translation.erasure (limit : Nat) : Translation where
  rewrite := Expr.eraseTypes
  limit := limit
  newLimit := limit
  limit_le := le_rfl
  moreFuel := False
  parts _ h := Expr.erase_types_eq h
  typed _ _ _ := .inl (by rw [Expr.eraseTypes])

theorem Translation.not_lifts_erasure {limit : Nat} {exit : Exit} :
    ¬(Translation.erasure limit).Lifts exit := by
  rintro (hlt | hmore)
  · exact lt_irrefl limit hlt
  · exact hmore

theorem Translation.erasure_interpreter {limit : Nat} {interpreter : Interpreter}
    (h : interpreter.world.maxDepth = limit) :
    (Translation.erasure limit).interpreter interpreter = interpreter.eraseTypes := by
  subst h
  rfl

/-- Every evaluation is carried over to the expression without types. -/
theorem Eval.evaluate_erased (limit fuel : Nat) (expr : Expr) :
    Carries (.erasure limit) (evaluate fuel expr) (evaluate fuel expr.eraseTypes) := by
  induction fuel generalizing expr with
  | zero => exact carries_throw _
  | succ fuel ih =>
      exact fun state hlimit => carried_step ih le_rfl (fun hlt => lt_irrefl fuel hlt) expr hlimit
        (fun _ _ _ => rfl) fun _ _ _ _ _ _ => rfl

namespace Interpreter

/-- A program without types, run where functions have none, does what the program does. -/
theorem run_program_erased (interpreter : Interpreter) (fuel : Nat) (program : Program) :
    interpreter.eraseTypes.runProgram fuel program.eraseTypes =
      ((interpreter.runProgram fuel program).1,
        (interpreter.runProgram fuel program).2.eraseTypes) := by
  have hblock : (Expr.block program).eraseTypes = .block program.eraseTypes := by
    rw [Expr.eraseTypes, Expr.erase_all_eq]
    rfl
  have hcarried := Eval.evaluate_erased interpreter.world.maxDepth (fuel + 1) (.block program)
    interpreter.started rfl
  rw [hblock] at hcarried
  obtain ⟨heq, hlimit⟩ := run_program_carried hcarried fun _ hlifts =>
    (Translation.not_lifts_erasure hlifts).elim
  have hafter : (Translation.erasure _).interpreter (interpreter.runProgram fuel program).2 =
      (interpreter.runProgram fuel program).2.eraseTypes :=
    Translation.erasure_interpreter hlimit
  exact heq.trans (Prod.ext rfl hafter)

/-- A program and the program without types, run in the same interpreter, end in the same way, with
the same value or error, and leave the same interpreter, once the types are taken out of the bodies
of functions too: what they have written is the same, and so are the bindings and constants, the
tables of functions and classes, and all objects. -/
theorem run_program_without_types (interpreter : Interpreter) (fuel : Nat) (program : Program) :
    (interpreter.runProgram fuel program.eraseTypes).1 =
        (interpreter.runProgram fuel program).1 ∧
      (interpreter.runProgram fuel program.eraseTypes).2.eraseTypes =
        (interpreter.runProgram fuel program).2.eraseTypes := by
  have hplain := interpreter.run_program_erased fuel program
  have herased := interpreter.run_program_erased fuel program.eraseTypes
  rw [Program.erase_types_twice, hplain] at herased
  exact ⟨(congrArg Prod.fst herased).symm, (congrArg Prod.snd herased).symm⟩

end Interpreter

end Script
