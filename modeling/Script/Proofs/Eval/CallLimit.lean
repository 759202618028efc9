import Script.Proofs.Eval.Translation
import Script.Proofs.Parser.Room

/-!
# Raising the limit on the depth of calls

The limit on the depth of calls decides where a call is refused. It also decides how many frames the
machine has, and so how deeply a source may be nested to be read, how deeply values may be nested to
be shown or compared, and how much room there is for nested evaluations; this room is the fuel. If a
run meets none of these limits, it does the same under every higher limit that the machine allows
(`Interpreter.run_under_higher_limit`). A handler could have caught the error of a limit that is
met, so it matters what is met in the course of the run, not only how it ends. A limit that is too
high for the machine gives a fault instead.
-/

namespace Script

/-- The state with another limit on the depth of calls. -/
def EvalState.withLimit (limit : Nat) (state : EvalState) : EvalState :=
  state.withHeap (state.world.heap.withLimit limit)

/-- The interpreter with another limit on the depth of calls. -/
def Interpreter.withLimit (limit : Nat) (interpreter : Interpreter) : Interpreter :=
  { interpreter with
    world := { interpreter.world with heap := interpreter.world.heap.withLimit limit } }

theorem Heap.map_bodies_id (heap : Heap) : heap.mapBodies id = heap := by
  have hdefinition (definition : FunctionDef) : definition.mapBody id = definition := by
    unfold FunctionDef.mapBody
    rw [List.map_id]
  unfold mapBodies
  rw [Store.map_id hdefinition]

/-- Raising the limit on the depth of calls and the fuel, with programs as they are. -/
def Translation.raising {limit newLimit : Nat} (h : limit ≤ newLimit) : Translation where
  rewrite := id
  limit := limit
  newLimit := newLimit
  limit_le := h
  moreFuel := True
  parts expr _ := expr.map_parts_id.symm
  typed _ _ _ := .inr rfl

namespace Translation

variable {limit newLimit : Nat} (h : limit ≤ newLimit)

theorem raising_heap (heap : Heap) : (raising h).heap heap = heap.withLimit newLimit := by
  unfold Translation.heap
  rw [show (raising h).rewrite = id from rfl, Heap.map_bodies_id]
  rfl

theorem raising_state (state : EvalState) :
    (raising h).state state = state.withLimit newLimit := by
  unfold Translation.state Translation.world
  rw [raising_heap]
  rfl

theorem raising_interpreter (interpreter : Interpreter) :
    (raising h).interpreter interpreter = interpreter.withLimit newLimit := by
  unfold Translation.interpreter Translation.world
  rw [raising_heap]
  rfl

end Translation

/-- A source that can be run under a limit is the same program under a higher one. -/
theorem Program.Reads.mono {limit newLimit : Nat} {source : String} {program : Program}
    (h : limit ≤ newLimit) (hreads : Reads limit source program) :
    Reads newLimit source program := by
  obtain ⟨tokens, htokens, hread⟩ := hreads
  have hdeepens := of_tokens_within_deepens true (source_nesting_limit_mono h) tokens
  exact ⟨tokens, htokens, hdeepens.ok hread⟩

namespace Eval

variable {limit newLimit : Nat}

/-- Here the limit is met, or the evaluation does something else under the new one. -/
def LimitMatters (h : limit ≤ newLimit) (ev other : Evaluator) (part : Expr) (inner : EvalState) :
    Prop :=
  (ev part inner).1 = .error (.fault .recursion) ∨
    inner.world.maxDepth = limit ∧
      ¬Carried (.raising h) (ev part inner) (other part (inner.withLimit newLimit))

/-- Stopped where the limit matters, an evaluation is carried over. -/
theorem carries_stopped (h : limit ≤ newLimit) (ev other : Evaluator) (mark : Heap)
    (part : Expr) :
    Carries (.raising h) (stopped ev (LimitMatters h ev other) mark part) (other part) := by
  intro state hlimit
  rw [Translation.raising_state]
  unfold stopped
  by_cases hstate : LimitMatters h ev other part state
  · rw [if_pos hstate]
    exact .lifted (.fuel trivial) rfl
  · rw [if_neg hstate]
    exact not_not.mp fun hnot => hstate (.inr ⟨hlimit, hnot⟩)

/-- Stopped where the limit matters, an evaluation does not meet it. -/
theorem stopped_ne_recursion (h : limit ≤ newLimit) (ev other : Evaluator) (mark : Heap)
    (part : Expr) (state : EvalState) :
    (stopped ev (LimitMatters h ev other) mark part state).1 ≠ .error (.fault .recursion) := by
  intro hdeep
  unfold stopped at hdeep
  by_cases hstate : LimitMatters h ev other part state
  · rw [if_pos hstate] at hdeep
    cases hdeep
  · rw [if_neg hstate] at hdeep
    exact hstate (.inl hdeep)

/-- If no limit is met in the course of an evaluation, it does the same under a higher one, unless
its fuel is short. -/
theorem evaluate_raised (h : limit ≤ newLimit) {fuel fuel' : Nat} (hfuel : fuel ≤ fuel')
    {expr : Expr} {state : EvalState} (hlimit : state.world.maxDepth = limit)
    (hfree : ¬MeetsLimit fuel expr state) :
    Carried (.raising h) (evaluate fuel expr state)
      (evaluate fuel' expr (state.withLimit newLimit)) := by
  induction fuel generalizing fuel' expr state with
  | zero => exact .lifted (.fuel trivial) rfl
  | succ fuel ih =>
      obtain ⟨fuel', rfl⟩ := Nat.exists_eq_add_one.mpr (Nat.zero_lt_of_lt hfuel)
      have hless := Nat.le_of_succ_le_succ hfuel
      let ev := evaluate fuel
      let other := evaluate fuel'
      let mark := markedHeap fuel expr state
      have hlow : step (stopped ev (LimitMatters h ev other) mark) fuel expr state =
          step ev fuel expr state := by
        by_contra hdiffers
        obtain ⟨part, inner, hmatters, hconsults⟩ := exists_consulted marked_heap_ne hdiffers
        obtain hdeep | ⟨hinner, hnot⟩ := hmatters
        · exact hfree (.tooDeep (.inside hconsults (.here _ _ _)) hdeep)
        · exact hnot (ih hless hinner fun hmeets => hfree (hmeets.inside hconsults))
      have hcarried := carried_step (carries_stopped h ev other mark) hless (fun _ => trivial)
        expr hlimit
        (fun part inner hdeep => (stopped_ne_recursion h ev other mark part inner hdeep).elim)
        fun id items receiver inner hcalls hrefuses =>
          (hfree (.refused (.here _ _ _) hcalls.of_stopped hrefuses)).elim
      rwa [hlow, Translation.raising_state] at hcarried

end Eval

namespace Interpreter

open Eval

/-- In the course of running a source a limit is met: the source is nested too deeply to be read, or
it is a program and a limit is met in the course of running that. -/
inductive MeetsLimit (interpreter : Interpreter) (fuel : Nat) (source : String) : Prop where
  | source {tokens : List Token} (htokens : Token.tokenize source = .ok tokens)
      (hdeep : Program.ofTokensWithin true (sourceNestingLimit interpreter.world.maxDepth) tokens =
        .error .tooDeep)
  | program {program : Program}
      (hreads : Program.Reads interpreter.world.maxDepth source program)
      (hmeets : Eval.MeetsLimit (fuel + 1) (.block program)
        (interpreter.withLog (.sourceRead source.length :: interpreter.world.log)).started)

/-- If the source is a program, the limit is met in the course of running that. -/
theorem MeetsLimit.of_reads {interpreter : Interpreter} {fuel : Nat} {source : String}
    {program : Program} (h : interpreter.MeetsLimit fuel source)
    (hreads : Program.Reads interpreter.world.maxDepth source program) :
    Eval.MeetsLimit (fuel + 1) (.block program)
      (interpreter.withLog (.sourceRead source.length :: interpreter.world.log)).started := by
  cases h with
  | source htokens hdeep =>
      obtain ⟨tokens, htokens', hread⟩ := hreads
      cases htokens.symm.trans htokens'
      cases hread.symm.trans hdeep
  | program hreads' hmeets =>
      cases hreads.unique hreads'
      exact hmeets

/-- A program that runs out of fuel has no result. -/
theorem run_program_out_of_fuel {interpreter : Interpreter} {fuel : Nat} {program : Program}
    (h : (evaluate (fuel + 1) (.block program) interpreter.started).1 = .error .outOfFuel) :
    (interpreter.runProgram fuel program).1 = .outOfFuel := by
  have hbody : (body (evaluate fuel) program interpreter.started).1 = .error .outOfFuel := h
  rw [run_program_eq]
  unfold raiseFaults atBoundary
  generalize body (evaluate fuel) program interpreter.started = outcome at hbody ⊢
  obtain ⟨result, after⟩ := outcome
  cases hbody
  rfl

/-- If no limit is met, a program does the same under a higher limit and with more fuel. -/
theorem run_program_under_higher_limit {interpreter : Interpreter} {fuel fuel' limit : Nat}
    {program : Program} (hlimit : interpreter.world.maxDepth ≤ limit) (hfuel : fuel ≤ fuel')
    (hfree : ¬Eval.MeetsLimit (fuel + 1) (.block program) interpreter.started)
    (hends : (interpreter.runProgram fuel program).1 ≠ .outOfFuel) :
    (interpreter.withLimit limit).runProgram fuel' program =
      ((interpreter.runProgram fuel program).1,
        (interpreter.runProgram fuel program).2.withLimit limit) := by
  have hcarried := evaluate_raised hlimit (Nat.succ_le_succ hfuel) rfl hfree
  have hprogram : program.map (Translation.raising hlimit).rewrite = program :=
    List.map_id program
  rw [← Translation.raising_state hlimit] at hcarried
  have hunmet (exit : Exit) (hlifts : (Translation.raising hlimit).Lifts exit) :
      (evaluate (fuel + 1) (.block program) interpreter.started).1 ≠ .error exit := by
    intro hexit
    cases hlifts with
    | depth => exact hfree (.tooDeep (.here _ _ _) hexit)
    | fuel => exact hends (run_program_out_of_fuel hexit)
  obtain ⟨heq, -⟩ := run_program_carried (by rw [hprogram]; exact hcarried) hunmet
  rw [hprogram, Translation.raising_interpreter, Translation.raising_interpreter] at heq
  exact heq

/-- A source that is no program, and not because it is nested too deeply, is none under a higher
limit. -/
theorem run_unread_under_higher_limit {interpreter : Interpreter} {fuel limit : Nat}
    (fuel' : Nat) {source : String} (hlimit : interpreter.world.maxDepth ≤ limit)
    (hhighest : limit ≤ highestMaxDepth) (hfree : ¬interpreter.MeetsLimit fuel source)
    (hprogram : ¬∃ program, Program.Reads interpreter.world.maxDepth source program) :
    (interpreter.withLimit limit).run fuel' source =
      ((interpreter.run fuel source).1, (interpreter.run fuel source).2.withLimit limit) := by
  have hlow : interpreter.depthFault? = none := if_pos (hlimit.trans hhighest)
  have hhigh : (interpreter.withLimit limit).depthFault? = none := if_pos hhighest
  unfold run
  rw [hlow, hhigh]
  unfold runSource
  dsimp only
  cases htokens : Token.tokenize source with
  | error error => rfl
  | ok tokens =>
      have hdeepens := Program.of_tokens_within_deepens true (source_nesting_limit_mono hlimit)
        tokens
      cases hread : Program.ofTokensWithin true
          (sourceNestingLimit interpreter.world.maxDepth) tokens with
      | ok program => exact (hprogram ⟨program, tokens, htokens, hread⟩).elim
      | error failure =>
          cases failure with
          | tooDeep => exact (hfree (.source htokens hread)).elim
          | wrong error =>
              have hread' := hdeepens.resolve_left (by rw [hread]; nofun)
              dsimp only
              rw [show (interpreter.withLimit limit).world.maxDepth = limit from rfl, hread',
                hread]
              rfl

end Interpreter

end Script
