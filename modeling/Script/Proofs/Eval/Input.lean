import Script.Proofs.Eval.Console
import Script.Proofs.Eval.Sequence

/-!
# What evaluations read

The input of the console is a row of lines (`Console.lines`), and reading takes the first of them.
On a console that never fails, what an evaluation does depends on the lines that it reads only:
`Eval.Heeds` compares an evaluation with itself on a console that has other lines behind those that
are read, and perhaps another text written on it. Every evaluation is shown to do the same on both,
and so is the run of every source (`Interpreter.run_with_console`).
-/

namespace Script

/-! ## Lines -/

namespace Console

/-- The lines of an input, each with its line break. The last line may lack it. -/
def lines : List Char → List (List Char)
  | [] => []
  | c :: rest =>
    if c = '\n' then [c] :: lines rest
    else
      match lines rest with
      | [] => [[c]]
      | line :: later => (c :: line) :: later

theorem lines_break (rest : List Char) : lines ('\n' :: rest) = ['\n'] :: lines rest :=
  rfl

theorem lines_of_no_more {c : Char} {rest : List Char} (hc : c ≠ '\n') (hrest : lines rest = []) :
    lines (c :: rest) = [[c]] := by
  rw [lines, if_neg hc, hrest]

theorem lines_of_more {c : Char} {rest line : List Char} {later : List (List Char)} (hc : c ≠ '\n')
    (hrest : lines rest = line :: later) : lines (c :: rest) = (c :: line) :: later := by
  rw [lines, if_neg hc, hrest]

theorem lines_eq_nil_iff {input : List Char} : lines input = [] ↔ input = [] := by
  cases input with
  | nil => exact ⟨fun _ => rfl, fun _ => rfl⟩
  | cons c rest =>
      refine ⟨fun h => ?_, nofun⟩
      by_cases hc : c = '\n'
      · subst hc
        rw [lines_break] at h
        cases h
      · cases hrest : lines rest with
        | nil =>
            rw [lines_of_no_more hc hrest] at h
            cases h
        | cons line later =>
            rw [lines_of_more hc hrest] at h
            cases h

/-- There are no more lines than characters. -/
theorem length_lines_le (input : List Char) : (lines input).length ≤ input.length := by
  induction input with
  | nil => exact Nat.le_refl 0
  | cons c rest ih =>
      by_cases hc : c = '\n'
      · subst hc
        exact Nat.succ_le_succ ih
      · cases hrest : lines rest with
        | nil =>
            rw [lines_of_no_more hc hrest]
            exact Nat.le_add_left 1 rest.length
        | cons line later =>
            rw [hrest] at ih
            rw [lines_of_more hc hrest]
            exact Nat.le_succ_of_le ih

/-- Some of the lines of an input, put together again, are those lines. -/
theorem lines_flatten {input : List Char} {some : List (List Char)}
    (h : some.Sublist (lines input)) : lines some.flatten = some := by
  induction input generalizing some with
  | nil =>
      cases h
      rfl
  | cons c rest ih =>
      by_cases hc : c = '\n'
      · subst hc
        rw [lines_break] at h
        cases h with
        | cons _ hlater => exact ih hlater
        | cons_cons _ hlater => exact congrArg (['\n'] :: ·) (ih hlater)
      · cases hrest : lines rest with
        | nil =>
            rw [lines_of_no_more hc hrest] at h
            cases h with
            | cons _ hnone =>
                cases hnone
                rfl
            | cons_cons _ hnone =>
                cases hnone
                exact lines_of_no_more hc rfl
        | cons line later =>
            rw [lines_of_more hc hrest] at h
            rw [hrest] at ih
            cases h with
            | cons _ hlater => exact ih (hlater.cons line)
            | cons_cons _ hlater =>
                rename_i others
                have hline : lines (line ++ others.flatten) = line :: others :=
                  ih (hlater.cons_cons line)
                exact lines_of_more hc hline

/-- Reading takes the first line, if there is one, and leaves the others. -/
theorem cut_line_eq (input : List Char) :
    (cutLine input).1 = (lines input).headD [] ∧
      lines (cutLine input).2 = (lines input).tail := by
  induction input with
  | nil => exact ⟨rfl, rfl⟩
  | cons c rest ih =>
      by_cases hc : c = '\n'
      · subst hc
        exact ⟨rfl, rfl⟩
      · have hcut : cutLine (c :: rest) = (c :: (cutLine rest).1, (cutLine rest).2) := by
          unfold cutLine
          rw [List.takeWhile_cons_of_pos (by simpa using hc),
            List.dropWhile_cons_of_pos (by simpa using hc)]
          dsimp only
          split <;> rfl
        rw [hcut]
        cases hrest : lines rest with
        | nil =>
            obtain rfl := lines_eq_nil_iff.mp hrest
            rw [lines_of_no_more hc rfl]
            exact ⟨rfl, rfl⟩
        | cons line later =>
            rw [hrest] at ih
            rw [lines_of_more hc hrest]
            exact ⟨congrArg (c :: ·) ih.1, ih.2⟩

/-- The lines that are still to be read. -/
def ahead (console : Console) : List (List Char) :=
  lines console.input

/-- The console after a line has been read. -/
def afterLine (console : Console) : Console :=
  { console.used with input := (cutLine console.input).2 }

theorem ahead_after_line (console : Console) : console.afterLine.ahead = console.ahead.tail :=
  (cut_line_eq console.input).2

/-- Writing leaves the input alone, whether it fails or not. -/
theorem ahead_write (console : Console) (text : String) :
    (console.write text).2.ahead = console.ahead := by
  unfold write
  split <;> rfl

/-- Reading takes the next line, unless it fails. -/
theorem ahead_read_line (console : Console) :
    console.readLine.2.ahead = console.ahead ∨ console.readLine.2.ahead = console.ahead.tail := by
  unfold readLine
  split
  · exact .inl rfl
  · exact .inr console.ahead_after_line

/-- The line that is read, or nothing if there is none. -/
theorem line_eq (console : Console) : (cutLine console.input).1 = console.ahead.headD [] :=
  (cut_line_eq console.input).1

/-- Every line has a character. -/
theorem ne_nil_of_ahead {console : Console} {line : List Char} {later : List (List Char)}
    (h : console.ahead = line :: later) : line ≠ [] := by
  have hline := console.line_eq
  rw [h, List.headD_cons] at hline
  rw [← hline, Ne, cutLine_eq_nil_iff]
  exact fun hnone => List.cons_ne_nil line later (h.symm.trans (lines_eq_nil_iff.mpr hnone))

/-- The console never fails. -/
structure Works (console : Console) : Prop where
  reads (uses : Nat) : console.readsFail uses = none
  writes (uses : Nat) (text : String) : console.writesFail uses text = none

theorem works_of_input (input : String) : (ofInput input).Works :=
  ⟨fun _ => rfl, fun _ _ => rfl⟩

namespace Works

variable {console after : Console}

theorem of_remains (h : console.Works) (hremains : console.Remains after) : after.Works := by
  constructor
  · rw [hremains.reads]
    exact h.reads
  · rw [hremains.writes]
    exact h.writes

theorem write_eq (h : console.Works) (text : String) :
    console.write text = (.ok (), { console.used with output := console.output ++ text }) := by
  unfold write
  rw [h.writes]

theorem read_line_eq (h : console.Works) :
    console.readLine = (.ok (cutLine console.input).1, console.afterLine) := by
  unfold readLine
  rw [h.reads]
  rfl

theorem after_line (h : console.Works) : console.afterLine.Works :=
  h.of_remains ⟨rfl, rfl⟩

end Works

/-- Two consoles that never fail. The same lines are ahead on both at first; behind them, there are
the lines `rest` on one console and `rest'` on the other. -/
structure Mirrors (rest rest' : List (List Char)) (console console' : Console) : Prop where
  works : console.Works
  works' : console'.Works
  ahead : ∃ shared, console.ahead = shared ++ rest ∧ console'.ahead = shared ++ rest'

/-- If none of the lines `rest` is read, then both consoles share the next line, or there is none
any more on either. -/
theorem Mirrors.after_line {rest rest' : List (List Char)} {console console' : Console}
    (h : console.Mirrors rest rest' console') (hrest : rest = [] → rest' = [])
    (hleft : rest <:+ console.afterLine.ahead) :
    (cutLine console'.input).1 = (cutLine console.input).1 ∧
      console.afterLine.Mirrors rest rest' console'.afterLine := by
  obtain ⟨hworks, hworks', shared, hahead, hahead'⟩ := h
  rw [ahead_after_line, hahead] at hleft
  rw [line_eq, line_eq, hahead, hahead']
  suffices hsplit : (shared ++ rest').headD [] = (shared ++ rest).headD [] ∧
      (shared ++ rest).tail = shared.tail ++ rest ∧
        (shared ++ rest').tail = shared.tail ++ rest' by
    refine ⟨hsplit.1, hworks.after_line, hworks'.after_line, shared.tail, ?_⟩
    rw [ahead_after_line, ahead_after_line, hahead, hahead']
    exact hsplit.2
  cases shared with
  | cons line shared => exact ⟨rfl, rfl, rfl⟩
  | nil =>
      have hlength := hleft.length_le
      rw [List.nil_append, List.length_tail] at hlength
      have hnone : rest = [] := List.length_eq_zero_iff.mp (by omega)
      rw [hnone, hrest hnone]
      exact ⟨rfl, rfl, rfl⟩

end Console

namespace Eval

variable {α β : Type} {rest rest' : List (List Char)}

/-- An evaluation takes lines in their order, and depends on those it takes only: if it leaves all
of `rest`, then it does the same on a console that has `rest'` in its place. -/
structure Heeds (rest rest' : List (List Char)) (part : Eval α) : Prop where
  suffix (state : EvalState) :
    (part state).2.world.console.ahead <:+ state.world.console.ahead
  same (state : EvalState) (console : Console) :
    state.world.console.Mirrors rest rest' console →
    rest <:+ (part state).2.world.console.ahead →
      ∃ console', part (state.withConsole console) =
          ((part state).1, (part state).2.withConsole console') ∧
        (part state).2.world.console.Mirrors rest rest' console'

/-- The console that is left by a use of it. -/
theorem console_left (use : Console → Except StreamFault α × Console) (state : EvalState) :
    (onConsole use state).2.world.console = (use state.world.console).2 := by
  rw [on_console_run]
  rcases use state.world.console with ⟨fault | result, console⟩
  · cases fault <;> rfl
  · rfl

/-- A use of the console that does not fail. -/
theorem on_console_ok {use : Console → Except StreamFault α × Console} {state : EvalState}
    {result : α} {console : Console} (h : use state.world.console = (.ok result, console)) :
    onConsole use state = (.ok result, state.withConsole console) := by
  rw [on_console_run, h]

namespace Heeds

theorem of_blind {part : Eval α} (h : Blind part) : Heeds rest rest' part := by
  refine ⟨fun state => ?_, fun state console hmirrors _ => ⟨console, h state console, ?_⟩⟩
  · have hahead := congrArg Console.ahead (h.console state)
    exact hahead ▸ List.suffix_refl _
  · rwa [h.console]

theorem write (text : String) : Heeds rest rest' (write text) := by
  refine ⟨fun state => ?_, fun state console hmirrors _ => ?_⟩
  · have hahead := congrArg Console.ahead (console_left (·.write text) state)
    exact (hahead.trans (state.world.console.ahead_write text)) ▸ List.suffix_refl _
  · have hrun : Eval.write text state = _ := on_console_ok (hmirrors.works.write_eq text)
    rw [hrun]
    exact ⟨_, on_console_ok (hmirrors.works'.write_eq text), hmirrors.works.of_remains ⟨rfl, rfl⟩,
      hmirrors.works'.of_remains ⟨rfl, rfl⟩, hmirrors.ahead⟩

theorem read_line (hrest : rest = [] → rest' = []) : Heeds rest rest' readLine := by
  refine ⟨fun state => ?_, fun state console hmirrors hleft => ?_⟩
  · have hleft : (readLine state).2.world.console.ahead = _ :=
      congrArg Console.ahead (console_left (·.readLine) state)
    rw [hleft]
    rcases state.world.console.ahead_read_line with hahead | hahead
    · exact hahead ▸ List.suffix_refl _
    · exact hahead ▸ List.tail_suffix _
  · have hrun : readLine state = _ := on_console_ok hmirrors.works.read_line_eq
    rw [hrun] at hleft ⊢
    obtain ⟨hline, hafter⟩ := hmirrors.after_line hrest hleft
    refine ⟨console.afterLine, ?_, hafter⟩
    exact (on_console_ok hmirrors.works'.read_line_eq).trans
      (congrArg (fun line => (Except.ok line, state.withConsole console.afterLine)) hline)

/-- In each state the part may be another evaluation, whatever the console is. -/
theorem of_each {part : Eval α} (h : ∀ state : EvalState, ∃ other : Eval α,
    Heeds rest rest' other ∧
      ∀ console, part (state.withConsole console) = other (state.withConsole console)) :
    Heeds rest rest' part := by
  refine ⟨fun state => ?_, fun state console hmirrors hleft => ?_⟩
  · obtain ⟨other, hother, hsame⟩ := h state
    rw [show part state = other state from hsame state.world.console]
    exact hother.suffix state
  · obtain ⟨other, hother, hsame⟩ := h state
    rw [show part state = other state from hsame state.world.console] at hleft ⊢
    rw [hsame]
    exact hother.same state console hmirrors hleft

/-- What goes on after another part takes further lines. -/
theorem andThen {part : Eval α} (hpart : Heeds rest rest' part)
    (finish : Except Exit α × EvalState → Except Exit β × EvalState)
    (hfinish : ∀ result, Heeds rest rest' fun state => finish (result, state)) :
    Heeds rest rest' fun state => finish (part state) := by
  refine ⟨fun state => ?_, fun state console hmirrors hleft => ?_⟩
  · exact ((hfinish (part state).1).suffix (part state).2).trans (hpart.suffix state)
  · have hlater := (hfinish (part state).1).suffix (part state).2
    obtain ⟨middle, heq, hmiddle⟩ := hpart.same state console hmirrors (hleft.trans hlater)
    rw [heq]
    exact (hfinish (part state).1).same _ middle hmiddle hleft

theorem inherited : Inherited (Heeds rest rest') where
  blind := of_blind
  write := write
  andThen := andThen
  look next hblind hpart h := by
    refine ⟨fun state => ?_, fun state console hmirrors hleft => ?_⟩
    · rw [hpart]
      exact (h state).suffix state
    · rw [hpart] at hleft
      rw [hpart, hpart, hblind]
      exact (h state).same state console hmirrors hleft

end Heeds

end Eval

namespace Interpreter

open Eval

variable {rest rest' : List (List Char)}

/-- The interpreter with another console. -/
def withConsole (interpreter : Interpreter) (console : Console) : Interpreter :=
  { interpreter with world := { interpreter.world with console := console } }

/-- A run as an evaluation, which always has a result. -/
def asEval (run : Interpreter → RunResult × Interpreter) : Eval RunResult := fun state =>
  (.ok (run ⟨state.scope, state.world⟩).1, (run ⟨state.scope, state.world⟩).2.state)

theorem heeds_run_program (hrest : rest = [] → rest' = []) (fuel : Nat) (program : Program) :
    Heeds rest rest' (asEval fun interpreter => interpreter.runProgram fuel program) := by
  let run : Eval Value := raiseFaults (atBoundary (body (evaluate fuel) program))
  have hrun : Heeds rest rest' run := by
    have hevaluate := Heeds.inherited.evaluate (.read_line hrest) fuel
    exact Heeds.inherited.raise_faults
      (Heeds.inherited.at_boundary (Heeds.inherited.body hevaluate program))
  have hstarted : Heeds rest rest' fun state =>
      (.ok (), (Interpreter.mk state.scope state.world).started) :=
    .of_blind fun _ _ => rfl
  unfold asEval
  simp only [run_program_eq]
  refine (hstarted.andThen (fun outcome => run outcome.2) fun _ => hrun).andThen (fun outcome =>
    (.ok (report outcome).1, (report outcome).2.state)) fun result => ?_
  exact .of_blind fun _ _ => rfl

theorem heeds_run_source (hrest : rest = [] → rest' = []) (fuel : Nat) (source : String) :
    Heeds rest rest' (asEval fun interpreter => interpreter.runSource fuel source) := by
  refine .of_each fun state => ?_
  cases htokens : Token.tokenize source with
  | error error =>
      refine ⟨asEval fun interpreter => (.failed (.lex error),
        interpreter.withLog (.sourceRead source.length :: interpreter.world.log)),
        .of_blind fun _ _ => rfl, fun console => ?_⟩
      simp only [asEval, runSource, htokens]
      rfl
  | ok tokens =>
      -- How deeply the source may be nested depends on the state, but not on its console.
      have hsame (console : Console) :
          (state.withConsole console).world.maxDepth = state.world.maxDepth := rfl
      cases hread :
          Program.ofTokensWithin true (sourceNestingLimit state.world.maxDepth) tokens with
      | ok program =>
          have hlogged : Heeds rest rest' (Eval.record (.sourceRead source.length)) :=
            .of_blind fun _ _ => rfl
          refine ⟨_, hlogged.andThen (fun outcome => asEval (·.runProgram fuel program) outcome.2)
            fun _ => heeds_run_program hrest fuel program, fun console => ?_⟩
          simp only [asEval, runSource, htokens, hsame, hread]
          rfl
      | error stop =>
          cases stop with
          | wrong error =>
              refine ⟨asEval fun interpreter => (.failed (.parse error),
                interpreter.withLog (.sourceRead source.length :: interpreter.world.log)),
                .of_blind fun _ _ => rfl, fun console => ?_⟩
              simp only [asEval, runSource, htokens, hsame, hread]
              rfl
          | tooDeep =>
              refine ⟨asEval fun interpreter =>
                (interpreter.withLog (.sourceRead source.length :: interpreter.world.log)).throwNew
                  .recursionError [recursionMessage], .of_blind fun _ _ => rfl, fun console => ?_⟩
              simp only [asEval, runSource, htokens, hsame, hread]
              rfl

theorem heeds_run (hrest : rest = [] → rest' = []) (fuel : Nat) (source : String) :
    Heeds rest rest' (asEval fun interpreter => interpreter.run fuel source) := by
  let next (state : EvalState) : Eval RunResult :=
    (Interpreter.mk state.scope state.world).depthFault?.elim (asEval (·.runSource fuel source))
      fun fault => pure (.fault fault)
  refine Heeds.inherited.look next (fun _ _ => rfl) ?_ ?_
  · intro state
    unfold asEval run
    dsimp only [next]
    cases (Interpreter.mk state.scope state.world).depthFault? with
    | none => rfl
    | some fault => rfl
  · intro state
    dsimp only [next]
    cases (Interpreter.mk state.scope state.world).depthFault? with
    | none => exact heeds_run_source hrest fuel source
    | some fault => exact Heeds.inherited.pure _

/-- A run takes lines from the console in their order. -/
theorem ahead_run_suffix (interpreter : Interpreter) (fuel : Nat) (source : String) :
    (interpreter.run fuel source).2.world.console.ahead <:+ interpreter.world.console.ahead := by
  have hheeds : Heeds [] [] (asEval (·.run fuel source)) := heeds_run (fun _ => rfl) fuel source
  exact hheeds.suffix interpreter.state

/-- A run that reads the lines `taken` is the same on a console that has other lines behind these.
If the run leaves no line, it may have met the end of the input, which has to come there too. -/
theorem run_with_console {interpreter : Interpreter} {console : Console} {fuel : Nat}
    {source : String} {taken : List (List Char)}
    (hworks : interpreter.world.console.Works) (hworks' : console.Works)
    (htaken : interpreter.world.console.ahead =
      taken ++ (interpreter.run fuel source).2.world.console.ahead)
    (hahead : console.ahead = taken ++ rest')
    (hrest : (interpreter.run fuel source).2.world.console.ahead = [] → rest' = []) :
    ∃ console', (interpreter.withConsole console).run fuel source =
        ((interpreter.run fuel source).1, (interpreter.run fuel source).2.withConsole console') ∧
      (interpreter.run fuel source).2.world.console.Works ∧ console'.Works ∧
      console'.ahead = rest' := by
  obtain ⟨console', heq, hafter⟩ := (heeds_run hrest fuel source).same interpreter.state console
    ⟨hworks, hworks', taken, htaken, hahead⟩ (List.suffix_refl _)
  obtain ⟨hresult, hstate⟩ := Prod.mk.inj heq
  refine ⟨console', Prod.ext (Except.ok.inj hresult) ?_, hafter.works, hafter.works', ?_⟩
  · exact congrArg (fun state : EvalState => Interpreter.mk state.scope state.world) hstate
  · obtain ⟨shared, hleft, hahead'⟩ := hafter.ahead
    obtain rfl : shared = [] := List.append_left_eq_self.mp hleft.symm
    exact hahead'

/-- A console that never fails still never fails after a run. -/
theorem works_run {interpreter : Interpreter} {fuel : Nat} {source : String}
    (h : interpreter.world.console.Works) :
    (interpreter.run fuel source).2.world.console.Works := by
  obtain ⟨taken, htaken⟩ := interpreter.ahead_run_suffix fuel source
  obtain ⟨-, -, hworks, -, -⟩ := run_with_console h h htaken.symm htaken.symm id
  exact hworks

end Interpreter

end Script
