import Script.Prompt
import Script.Proofs.Eval.Reading
import Script.Proofs.Text.Words

/-!
# Sessions at the prompt

The prompt and the programs that it runs read from the same console. A session is a row of rounds:
in each the prompt reads a line. Without the blanks around it, the line is nothing, or one of the
words that leave the prompt, or a program, which may read further lines. `Prompt.Session` says step
by step what a session comes to, and `Prompt.session_of_loop` that the prompt conducts one. Its
rounds hold the lines of the input in their order.

A session can be replayed without the prompt: an interpreter whose console has just the lines that
were read by programs runs these programs one after the other. `Prompt.Replays` says that it comes
to the same state, and that each program reads the same lines; `Prompt.run_conserves_lines` says so
of the session that the prompt conducts on any input.
-/

namespace Script

namespace Interpreter

/-- Runs sources one after the other, whatever each of them comes to. -/
def runAll (interpreter : Interpreter) (fuel : Nat) (sources : List String) : Interpreter :=
  sources.foldl (fun current source => (current.run fuel source).2) interpreter

theorem run_all_append (interpreter : Interpreter) (fuel : Nat) (first second : List String) :
    interpreter.runAll fuel (first ++ second) =
      (interpreter.runAll fuel first).runAll fuel second :=
  List.foldl_append

end Interpreter

namespace Prompt

/-- A round of the prompt: the line that the prompt reads, its text without the blanks around it,
and the lines that the program of that line reads. -/
structure Round where
  line : List Char
  text : String
  taken : List (List Char)
  trims : Text.Trims Text.isBlank line text.toList

namespace Round

/-- The lines of a round, in the order in which they are read. -/
def lines (round : Round) : List (List Char) :=
  round.line :: round.taken

/-- The line leaves the prompt. -/
def Leaves (round : Round) : Prop :=
  round.text = "exit" ∨ round.text = "quit"

instance (round : Round) : Decidable round.Leaves :=
  inferInstanceAs (Decidable (_ ∨ _))

/-- The line is a program: it is not blank, and it does not leave the prompt. -/
def IsProgram (round : Round) : Prop :=
  round.text ≠ "" ∧ ¬round.Leaves

instance (round : Round) : Decidable round.IsProgram :=
  inferInstanceAs (Decidable (_ ∧ _))

/-- The program that is run in a round. -/
def source? (round : Round) : Option String :=
  if round.IsProgram then some round.text else none

variable {round : Round}

theorem not_leaves_of_blank (h : round.text = "") : ¬round.Leaves := by
  unfold Leaves
  rw [h]
  decide

/-- What the prompt makes of the line of a round. -/
theorem of_chars (hline : round.line ≠ []) : Line.ofChars round.line =
    if round.text = "" then .blank
    else if round.Leaves then .farewell
    else .source round.text := by
  have htext : String.ofList (Text.trimBy Text.isBlank round.line) = round.text := by
    rw [round.trims.eq, String.ofList_toList]
  have hleaves : farewells.contains round.text = true ↔ round.Leaves := by
    simp [farewells, Leaves]
  unfold Line.ofChars
  rw [if_neg (by simpa using hline)]
  dsimp only
  simp only [htext, hleaves, String.isEmpty_iff]

end Round

/-- The round of a line, in which some further lines are read. -/
def roundOf (line : List Char) (taken : List (List Char)) : Round where
  line := line
  text := String.ofList (Text.trimBy Text.isBlank line)
  taken := taken
  trims := by
    rw [String.toList_ofList]
    exact Text.trims_trim_by _ _

/-- The programs of some rounds. -/
def programs (rounds : List Round) : List String :=
  rounds.filterMap Round.source?

/-- The lines that the programs of some rounds read. -/
def takenLines (rounds : List Round) : List (List Char) :=
  rounds.flatMap Round.taken

/-- The prompt cannot go on after a program: the program does not end in time, the machine reports
a fault, or the value cannot be shown once the machine is at rest. -/
inductive Breaks (fuel : Nat) (interpreter : Interpreter) (source : String) : Ending → Prop where
  | outOfFuel (h : (interpreter.run fuel source).1 = .outOfFuel) :
      Breaks fuel interpreter source .outOfFuel
  | fault {fault : Fault} (h : (interpreter.run fuel source).1 = .fault fault) :
      Breaks fuel interpreter source (.fault fault)
  | display {value : Value} {fault : Fault}
      (hvalue : (interpreter.run fuel source).1 = .value value)
      (h : (interpreter.run fuel source).2.world.heap.atRest.display value = .error fault) :
      Breaks fuel interpreter source (.fault fault)

/-! ## Rounds one after the other -/

/-- The prompt has written its mark and read a line. -/
def listening (interpreter : Interpreter) : Interpreter :=
  interpreter.withConsole (interpreter.world.console.write mark).2.afterLine

theorem ahead_listening (interpreter : Interpreter) :
    (listening interpreter).world.console.ahead = interpreter.world.console.ahead.tail :=
  (Console.ahead_after_line _).trans (congrArg List.tail (Console.ahead_write _ _))

theorem ahead_of_line {interpreter : Interpreter} {line : List Char} {later : List (List Char)}
    (h : interpreter.world.console.ahead = line :: later) :
    (listening interpreter).world.console.ahead = later :=
  (ahead_listening interpreter).trans (congrArg List.tail h)

theorem works_listening {interpreter : Interpreter} (h : interpreter.world.console.Works) :
    (listening interpreter).world.console.Works :=
  (h.of_remains (.write _ _)).after_line

theorem ask_eq {interpreter : Interpreter} (h : interpreter.world.console.Works) :
    ask interpreter =
      (.ok (Line.ofChars (interpreter.world.console.ahead.headD [])), listening interpreter) := by
  let marked := interpreter.withConsole (interpreter.world.console.write mark).2
  have hwrite : write interpreter mark = ((interpreter.world.console.write mark).1, marked) := rfl
  have hread : marked.world.console.readLine = _ :=
    (h.of_remains (.write interpreter.world.console mark)).read_line_eq
  unfold ask
  rw [hwrite, h.write_eq]
  unfold onConsole
  dsimp only
  rw [hread, Console.line_eq, Console.ahead_write]
  rfl

/-- The interpreter has written at most. -/
structure Writes (interpreter next : Interpreter) : Prop where
  console : ∃ console, next = interpreter.withConsole console
  ahead : next.world.console.ahead = interpreter.world.console.ahead
  works : interpreter.world.console.Works → next.world.console.Works

theorem Writes.refl (interpreter : Interpreter) : Writes interpreter interpreter :=
  ⟨⟨interpreter.world.console, rfl⟩, rfl, id⟩

theorem writes_write (interpreter : Interpreter) (text : String) :
    Writes interpreter (write interpreter text).2 where
  console := ⟨_, rfl⟩
  ahead := Console.ahead_write _ _
  works h := h.of_remains (.write _ _)

theorem write_ok {interpreter : Interpreter} (h : interpreter.world.console.Works)
    (text : String) : (write interpreter text).1 = .ok () :=
  congrArg Prod.fst (h.write_eq text)

/-- What a session comes to. -/
inductive Session (fuel : Nat) : Interpreter → List Round → Ending → Interpreter → Prop where
  | exhausted {interpreter last : Interpreter} (hahead : interpreter.world.console.ahead = [])
      (hlast : Writes (listening interpreter) last) :
      Session fuel interpreter [] (.code 0) last
  | farewell {interpreter : Interpreter} {round : Round} {later : List (List Char)}
      (hahead : interpreter.world.console.ahead = round.line :: later) (htaken : round.taken = [])
      (hround : round.Leaves) :
      Session fuel interpreter [round] (.code 0) (listening interpreter)
  | blank {interpreter last : Interpreter} {round : Round} {later : List (List Char)}
      {rounds : List Round} {ending : Ending}
      (hahead : interpreter.world.console.ahead = round.line :: later) (htaken : round.taken = [])
      (hround : round.text = "")
      (hnext : Session fuel (listening interpreter) rounds ending last) :
      Session fuel interpreter (round :: rounds) ending last
  | source {interpreter after next last : Interpreter} {round : Round} {rounds : List Round}
      {ending : Ending} (hafter : after = ((listening interpreter).run fuel round.text).2)
      (hahead : interpreter.world.console.ahead =
        round.line :: (round.taken ++ after.world.console.ahead))
      (hround : round.IsProgram) (hwrites : Writes after next)
      (hnext : Session fuel next rounds ending last) :
      Session fuel interpreter (round :: rounds) ending last
  | broken {interpreter after : Interpreter} {round : Round} {ending : Ending}
      (hafter : after = ((listening interpreter).run fuel round.text).2)
      (hahead : interpreter.world.console.ahead =
        round.line :: (round.taken ++ after.world.console.ahead))
      (hround : round.IsProgram)
      (hbreaks : Breaks fuel (listening interpreter) round.text ending) :
      Session fuel interpreter [round] ending after

/-- Running a line on a console that never fails writes at most, after the run, or breaks the
session. -/
theorem respond_cases (fuel : Nat) {interpreter : Interpreter} (source : String)
    (hworks : (interpreter.run fuel source).2.world.console.Works) :
    (∃ report next, respond fuel interpreter source = .goOn report next ∧
        Writes (interpreter.run fuel source).2 next) ∨
      ∃ ending, Breaks fuel interpreter source ending ∧
        respond fuel interpreter source = .stop ending (interpreter.run fuel source).2 := by
  unfold respond
  rcases hrun : interpreter.run fuel source with ⟨result, after⟩
  rw [hrun] at hworks
  cases result with
  | failed error => exact .inl ⟨_, after, rfl, .refl after⟩
  | fault fault => exact .inr ⟨_, .fault (congrArg Prod.fst hrun), rfl⟩
  | outOfFuel => exact .inr ⟨_, .outOfFuel (congrArg Prod.fst hrun), rfl⟩
  | value value =>
      dsimp only
      unfold showValue
      split
      · exact .inl ⟨_, after, rfl, .refl after⟩
      · split
        · rename_i fault hdisplay
          refine .inr ⟨_, .display (congrArg Prod.fst hrun) ?_, rfl⟩
          rwa [hrun]
        · rename_i text _
          have hwrites := writes_write after (text ++ "\n")
          have hok := write_ok hworks (text ++ "\n")
          rcases hwritten : write after (text ++ "\n") with ⟨fault | _, next⟩
          · rw [hwritten] at hok
            cases hok
          · rw [hwritten] at hwrites
            exact .inl ⟨_, next, rfl, hwrites⟩

/-- The prompt conducts a session on every console that never fails and has fewer lines than the
prompt may read. -/
def Conducts (fuel count : Nat) : Prop :=
  ∀ (reports : String) (interpreter : Interpreter), interpreter.world.console.Works →
    interpreter.world.console.ahead.length < count →
      ∃ rounds, Session fuel interpreter rounds
        (loop (respond fuel) reports count interpreter).ending
        (loop (respond fuel) reports count interpreter).interpreter

section

variable {fuel count : Nat} {interpreter : Interpreter} {line : List Char}
  {later : List (List Char)}

/-- A session at the end of the input. -/
theorem session_of_nothing (reports : String) (hworks : interpreter.world.console.Works)
    (hahead : interpreter.world.console.ahead = []) :
    Session fuel interpreter []
      (loop (respond fuel) reports (count + 1) interpreter).ending
      (loop (respond fuel) reports (count + 1) interpreter).interpreter := by
  have hok := write_ok (works_listening hworks) "\n"
  have hwrites := writes_write (listening interpreter) "\n"
  unfold loop
  rw [ask_eq hworks, hahead, List.headD_nil, show Line.ofChars [] = .exhausted from rfl]
  dsimp only
  rcases hwritten : write (listening interpreter) "\n" with ⟨fault | _, last⟩
  · rw [hwritten] at hok
    cases hok
  · rw [hwritten] at hwrites
    exact .exhausted hahead hwrites

/-- A session whose first line is a program. -/
theorem session_of_program (reports : String) (hworks : interpreter.world.console.Works)
    (hahead : interpreter.world.console.ahead = line :: later)
    (hprogram : (roundOf line []).IsProgram) (hcount : later.length < count)
    (hconducts : Conducts fuel count) :
    ∃ rounds, Session fuel interpreter rounds
      (loop (respond fuel) reports (count + 1) interpreter).ending
      (loop (respond fuel) reports (count + 1) interpreter).interpreter := by
  have hlistening := works_listening hworks
  have hlater := ahead_of_line hahead
  -- The program takes some of the lines that are left.
  let text := (roundOf line []).text
  obtain ⟨taken, htaken⟩ := (listening interpreter).ahead_run_suffix fuel text
  have hsplit := hahead.trans (congrArg (line :: ·) (htaken.trans hlater).symm)
  have hafter : ((listening interpreter).run fuel text).2.world.console.Works :=
    Interpreter.works_run hlistening
  have hchars : Line.ofChars line = _ :=
    (roundOf line []).of_chars (Console.ne_nil_of_ahead hahead)
  unfold loop
  rw [ask_eq hworks, hahead, List.headD_cons, hchars, if_neg hprogram.1, if_neg hprogram.2]
  dsimp only
  obtain ⟨report, next, hreply, hwrites⟩ | ⟨ending, hbreaks, hreply⟩ :=
    respond_cases fuel text hafter
  · rw [hreply]
    have hfewer : next.world.console.ahead.length < count := by
      have hlength := congrArg List.length htaken
      rw [List.length_append, hlater] at hlength
      rw [hwrites.ahead]
      omega
    obtain ⟨rounds, hsession⟩ :=
      hconducts (reports ++ report) next (hwrites.works hafter) hfewer
    exact ⟨roundOf line taken :: rounds, .source rfl hsplit hprogram hwrites hsession⟩
  · rw [hreply]
    exact ⟨[roundOf line taken], .broken rfl hsplit hprogram hbreaks⟩

end

/-- The prompt conducts a session if it may read a line more than there are. -/
theorem session_of_loop (fuel count : Nat) : Conducts fuel count := by
  induction count with
  | zero => exact fun _ _ _ hcount => (Nat.not_lt_zero _ hcount).elim
  | succ count ih =>
      intro reports interpreter hworks hcount
      cases hahead : interpreter.world.console.ahead with
      | nil => exact ⟨[], session_of_nothing reports hworks hahead⟩
      | cons line later =>
          rw [hahead, List.length_cons] at hcount
          have hfewer := Nat.lt_of_succ_lt_succ hcount
          by_cases hprogram : (roundOf line []).IsProgram
          · exact session_of_program reports hworks hahead hprogram hfewer ih
          have hchars : Line.ofChars line = _ :=
            (roundOf line []).of_chars (Console.ne_nil_of_ahead hahead)
          unfold loop
          rw [ask_eq hworks, hahead, List.headD_cons, hchars]
          by_cases hblank : (roundOf line []).text = ""
          · rw [if_pos hblank]
            have hlater := ahead_of_line hahead
            obtain ⟨rounds, hsession⟩ :=
              ih reports _ (works_listening hworks) (hlater ▸ hfewer)
            exact ⟨roundOf line [] :: rounds, .blank hahead rfl hblank hsession⟩
          · have hleaves : (roundOf line []).Leaves :=
              not_not.mp fun hnot => hprogram ⟨hblank, hnot⟩
            rw [if_neg hblank, if_pos hleaves]
            exact ⟨[roundOf line []], .farewell hahead rfl hleaves⟩

/-- The lines of an input are those of the rounds, in their order, and those that are left. -/
theorem Session.lines {fuel : Nat} {interpreter last : Interpreter} {rounds : List Round}
    {ending : Ending} (h : Session fuel interpreter rounds ending last) :
    interpreter.world.console.ahead =
      rounds.flatMap Round.lines ++ last.world.console.ahead := by
  induction h with
  | exhausted hahead hlast =>
      have hnone := (ahead_listening _).trans (congrArg List.tail hahead)
      exact hahead.trans (hlast.ahead.trans hnone).symm
  | farewell hahead htaken =>
      rw [hahead, List.flatMap_singleton, Round.lines, htaken, ahead_of_line hahead]
      rfl
  | blank hahead htaken _ _ ih =>
      rw [hahead, List.flatMap_cons, Round.lines, htaken, List.append_assoc, ← ih,
        ahead_of_line hahead]
      rfl
  | source _ hahead _ hwrites _ ih =>
      rw [hahead, List.flatMap_cons, List.append_assoc, ← ih, hwrites.ahead]
      rfl
  | broken _ hahead =>
      rw [hahead, List.flatMap_singleton]
      rfl

/-! ## Replaying a session -/

/-- Where a session has ended: at the end of the input, at the first line that leaves the prompt, or
at a program after which it cannot go on. -/
inductive Ends (fuel : Nat) (start : Interpreter) (rounds : List Round)
    (unread : List (List Char)) : Ending → Prop where
  | exhausted (hunread : unread = []) (hrounds : ∀ round ∈ rounds, ¬round.Leaves) :
      Ends fuel start rounds unread (.code 0)
  | farewell {done : List Round} {round : Round} (hrounds : rounds = done ++ [round])
      (hdone : ∀ earlier ∈ done, ¬earlier.Leaves) (hround : round.Leaves) :
      Ends fuel start rounds unread (.code 0)
  | broken {done : List Round} {round : Round} {ending : Ending}
      (hrounds : rounds = done ++ [round]) (hdone : ∀ earlier ∈ done, ¬earlier.Leaves)
      (hround : round.IsProgram)
      (hbreaks : Breaks fuel (start.runAll fuel (programs done)) round.text ending) :
      Ends fuel start rounds unread ending

/-- What is read in a session, and what it comes to. The interpreter `start` runs the programs of
the rounds without the prompt, on a console that has the lines that programs read. -/
structure Replays (fuel : Nat) (start : Interpreter) (rounds : List Round)
    (unread : List (List Char)) (last : Interpreter) : Prop where
  /-- The lines that are in no round are still on the console. -/
  left : last.world.console.ahead = unread
  /-- Only programs read further lines. -/
  idle : ∀ round ∈ rounds, ¬round.IsProgram → round.taken = []
  /-- The program of a round reads the lines of this round, whatever lines are behind them: those
  of the later rounds, as in the session, or any others. If none are left in the session, there must
  be none, since the program may have met the end of the input. -/
  reads : ∀ done round later, rounds = done ++ round :: later → round.IsProgram →
    ∀ console behind, console.Works → console.ahead = round.taken ++ behind →
      (later.flatMap Round.lines ++ unread = [] → behind = []) →
        ((start.runAll fuel (programs done)).withConsole console).RunReads fuel round.text
          round.taken behind
  /-- Without the prompt, the programs read the same lines. -/
  replayed : ∀ done later, rounds = done ++ later →
    (start.runAll fuel (programs done)).world.console.ahead = takenLines later
  /-- But for the console, the session ends in the state that the programs lead to. -/
  state : ∃ console, last = (start.runAll fuel (programs rounds)).withConsole console

section

variable {fuel : Nat} {start last : Interpreter} {rounds : List Round} {round : Round}
  {unread : List (List Char)}

theorem run_all_cons (start : Interpreter) (fuel : Nat) (round : Round) (rounds : List Round) :
    start.runAll fuel (programs (round :: rounds)) =
      (start.runAll fuel (programs [round])).runAll fuel (programs rounds) := by
  rw [← Interpreter.run_all_append]
  exact congrArg (start.runAll fuel) (List.filterMap_append (l := [round]))

theorem Replays.nil (hstart : start.world.console.ahead = [])
    (hlast : last = start.withConsole last.world.console) :
    Replays fuel start [] last.world.console.ahead last where
  left := rfl
  idle _ hmem := (List.not_mem_nil hmem).elim
  reads done round later hrounds := by
    have hnone := (List.append_eq_nil_iff.mp hrounds.symm).2
    cases hnone
  replayed done later hrounds := by
    obtain ⟨rfl, rfl⟩ := List.append_eq_nil_iff.mp hrounds.symm
    exact hstart
  state := ⟨last.world.console, hlast⟩

/-- A round before others. -/
theorem Replays.cons (hidle : ¬round.IsProgram → round.taken = [])
    (hreads : round.IsProgram → ∀ console behind, console.Works →
      console.ahead = round.taken ++ behind →
      (rounds.flatMap Round.lines ++ unread = [] → behind = []) →
        (start.withConsole console).RunReads fuel round.text round.taken behind)
    (hstart : start.world.console.ahead = takenLines (round :: rounds))
    (hnext : Replays fuel (start.runAll fuel (programs [round])) rounds unread last) :
    Replays fuel start (round :: rounds) unread last where
  left := hnext.left
  idle := List.forall_mem_cons.mpr ⟨hidle, hnext.idle⟩
  reads done other later hrounds hprogram := by
    obtain ⟨rfl, heq⟩ | ⟨done, rfl, rfl⟩ := List.cons_eq_append_iff.mp hrounds
    · cases heq
      exact hreads hprogram
    · rw [run_all_cons]
      exact hnext.reads done other later rfl hprogram
  replayed done later hrounds := by
    obtain ⟨rfl, rfl⟩ | ⟨done, rfl, rfl⟩ := List.cons_eq_append_iff.mp hrounds
    · exact hstart
    · rw [run_all_cons]
      exact hnext.replayed done later rfl
  state := by
    rw [run_all_cons]
    exact hnext.state

theorem Ends.cons {ending : Ending} (hround : ¬round.Leaves)
    (hnext : Ends fuel (start.runAll fuel (programs [round])) rounds unread ending) :
    Ends fuel start (round :: rounds) unread ending := by
  cases hnext with
  | exhausted hunread hrounds =>
      exact .exhausted hunread (List.forall_mem_cons.mpr ⟨hround, hrounds⟩)
  | farewell hrounds hdone hlast =>
      exact .farewell (congrArg (round :: ·) hrounds) (List.forall_mem_cons.mpr ⟨hround, hdone⟩)
        hlast
  | broken hrounds hdone hlast hbreaks =>
      rw [← run_all_cons] at hbreaks
      exact .broken (congrArg (round :: ·) hrounds) (List.forall_mem_cons.mpr ⟨hround, hdone⟩)
        hlast hbreaks

/-- Rounds in which no line is read are none. -/
theorem taken_lines_eq_nil (h : rounds.flatMap Round.lines = []) : takenLines rounds = [] := by
  cases rounds with
  | nil => rfl
  | cons round rounds => cases (List.append_eq_nil_iff.mp h).1

theorem run_all_idle (h : ¬round.IsProgram) :
    start.runAll fuel (programs [round]) = start := by
  have hnone : round.source? = none := if_neg h
  unfold programs
  rw [List.filterMap_cons_none hnone]
  rfl

theorem run_all_program (h : round.IsProgram) :
    start.runAll fuel (programs [round]) = (start.run fuel round.text).2 := by
  have hsome : round.source? = some round.text := if_pos h
  unfold programs
  rw [List.filterMap_cons_some hsome]
  rfl

/-- Whether a session breaks does not depend on the console that is left. -/
theorem Breaks.of_run {other : Interpreter} {console : Console} {text : String} {ending : Ending}
    (h : Breaks fuel start text ending)
    (hrun : other.run fuel text =
      ((start.run fuel text).1, (start.run fuel text).2.withConsole console)) :
    Breaks fuel other text ending := by
  have hresult := congrArg Prod.fst hrun
  cases h with
  | outOfFuel h => exact .outOfFuel (hresult.trans h)
  | fault h => exact .fault (hresult.trans h)
  | display hvalue h =>
      refine .display (hresult.trans hvalue) ?_
      rw [hrun]
      exact h

theorem Replays.cons_idle (hidle : ¬round.IsProgram) (htaken : round.taken = [])
    (hnext : Replays fuel start rounds unread last) :
    Replays fuel start (round :: rounds) unread last := by
  refine .cons (fun _ => htaken) (fun hprogram => (hidle hprogram).elim) ?_ ?_
  · refine (hnext.replayed [] rounds rfl).trans ?_
    unfold takenLines
    rw [List.flatMap_cons, htaken]
    rfl
  · rwa [run_all_idle hidle]

/-- The round of a program that does the same in the session and in its replay. -/
theorem Replays.cons_program {current : Interpreter} {console console' : Console}
    (hround : round.IsProgram)
    (hreads : current.RunReads fuel round.text round.taken
      (rounds.flatMap Round.lines ++ unread))
    (hworks : current.world.console.Works)
    (hahead : console.ahead = round.taken ++ takenLines rounds)
    (hrun : (current.withConsole console).run fuel round.text =
      ((current.run fuel round.text).1, (current.run fuel round.text).2.withConsole console'))
    (hnext : Replays fuel ((current.run fuel round.text).2.withConsole console') rounds unread
      last) :
    Replays fuel (current.withConsole console) (round :: rounds) unread last := by
  refine .cons (fun hidle => (hidle hround).elim) (fun _ => ?_) hahead ?_
  · exact fun _ _ hworks' hahead' hend => hreads.with_console hworks hworks' hahead' hend
  · rwa [run_all_program hround, hrun]

/-- A session comes to the same as its replay. -/
theorem Session.replays {interpreter : Interpreter} {ending : Ending}
    (h : Session fuel interpreter rounds ending last) {console : Console}
    (hworks : interpreter.world.console.Works) (hworks' : console.Works)
    (hahead : console.ahead = takenLines rounds) :
    Replays fuel (interpreter.withConsole console) rounds last.world.console.ahead last ∧
      Ends fuel (interpreter.withConsole console) rounds last.world.console.ahead ending := by
  induction h generalizing console with
  | exhausted hnone hlast =>
      obtain ⟨written, rfl⟩ := hlast.console
      refine ⟨.nil hahead rfl, .exhausted ?_ fun _ hmem => (List.not_mem_nil hmem).elim⟩
      exact hlast.ahead.trans ((ahead_listening _).trans (congrArg List.tail hnone))
  | farewell hline htaken hround =>
      have hnone : console.ahead = [] := by
        rw [hahead, takenLines, List.flatMap_singleton, htaken]
      refine ⟨.cons_idle (fun hprogram => hprogram.2 hround) htaken (.nil hnone rfl), ?_⟩
      exact .farewell (List.nil_append _).symm (fun _ hmem => (List.not_mem_nil hmem).elim) hround
  | blank hline htaken hround _ ih =>
      have hidle : ¬Round.IsProgram _ := fun hprogram => hprogram.1 hround
      rw [takenLines, List.flatMap_cons, htaken, List.nil_append] at hahead
      obtain ⟨hreplays, hends⟩ := ih (works_listening hworks) hworks' hahead
      refine ⟨hreplays.cons_idle hidle htaken, .cons (Round.not_leaves_of_blank hround) ?_⟩
      rwa [run_all_idle hidle]
  | source hafter hline hround hwrites hnext ih =>
      subst hafter
      have hleft := hwrites.ahead.symm.trans hnext.lines
      have htaken := ahead_of_line hline
      have hlistening := works_listening hworks
      -- If the program leaves no line, then there are no further rounds.
      have hrest (hnone : _ = []) :=
        taken_lines_eq_nil (List.append_eq_nil_iff.mp (hleft.symm.trans hnone)).1
      obtain ⟨console', hrun, hafter, hafter', hahead'⟩ :=
        Interpreter.run_with_console hlistening hworks' htaken hahead hrest
      obtain ⟨hreplays, hends⟩ := ih (hwrites.works hafter) hafter' hahead'
      obtain ⟨written, rfl⟩ := hwrites.console
      have hreads := Interpreter.run_reads (htaken.trans (congrArg _ hleft)) hleft
      have hcons := hreplays.cons_program hround hreads hlistening hahead hrun
      refine ⟨hcons, .cons hround.2 ?_⟩
      rw [run_all_program hround]
      exact (congrArg Prod.snd hrun) ▸ hends
  | broken hafter hline hround hbreaks =>
      subst hafter
      rename_i interpreter round _
      have htaken := ahead_of_line hline
      have hlistening := works_listening hworks
      obtain ⟨console', hrun, -, -, hahead'⟩ :=
        Interpreter.run_with_console hlistening hworks' htaken hahead fun _ => rfl
      have hreads := Interpreter.run_reads htaken rfl
      let after := ((listening interpreter).run fuel round.text).2
      have hlast : Replays fuel (after.withConsole console') [] _ after := .nil hahead' rfl
      have hcons : Replays fuel ((listening interpreter).withConsole console) [round] _ after :=
        hlast.cons_program hround hreads hlistening hahead hrun
      exact ⟨hcons, .broken (List.nil_append _).symm
        (fun _ hmem => (List.not_mem_nil hmem).elim) hround (hbreaks.of_run hrun)⟩

end

/-- The interpreter that replays some rounds. -/
def replay (maxDepth : Nat) (rounds : List Round) : Interpreter :=
  .fresh maxDepth (.ofInput (String.ofList (takenLines rounds).flatten))

theorem taken_lines_sublist (rounds : List Round) :
    (takenLines rounds).Sublist (rounds.flatMap Round.lines) := by
  induction rounds with
  | nil => exact .slnil
  | cons round rounds ih => exact (List.sublist_cons_self round.line round.taken).append ih

/-- What the prompt does with any input. The lines are read in their order, each once: by the
prompt, or by a program that calls `input`. If the prompt can always go on after a program, it ends
with the code zero at the first line it reads that is `exit` or `quit` but for the blanks around it,
or at the end of the input, and leaves the lines behind. Each other line that it reads and that is
not blank is run, once, in the state that the earlier ones have left, whatever errors they have
ended with. -/
theorem run_conserves_lines (maxDepth fuel : Nat) (stdin : String) :
    ∃ rounds unread,
      Console.lines stdin.toList = rounds.flatMap Round.lines ++ unread ∧
      Replays fuel (replay maxDepth rounds) rounds unread
        (run (.fresh maxDepth (.ofInput stdin)) fuel).interpreter ∧
      Ends fuel (replay maxDepth rounds) rounds unread
        (run (.fresh maxDepth (.ofInput stdin)) fuel).ending := by
  let start : Interpreter := .fresh maxDepth (.ofInput stdin)
  have hcount : start.world.console.ahead.length < start.world.console.input.length + 1 :=
    Nat.lt_succ_of_le (Console.length_lines_le stdin.toList)
  have hworks : start.world.console.Works := Console.works_of_input stdin
  obtain ⟨rounds, hsession⟩ := session_of_loop fuel _ "" start hworks hcount
  have hlines : Console.lines stdin.toList = _ := hsession.lines
  have htaken : (takenLines rounds).Sublist (Console.lines stdin.toList) := by
    rw [hlines]
    exact (taken_lines_sublist rounds).trans (List.sublist_append_left _ _)
  have hahead : (replay maxDepth rounds).world.console.ahead = takenLines rounds := by
    show Console.lines (String.ofList (takenLines rounds).flatten).toList = _
    rw [String.toList_ofList]
    exact Console.lines_flatten htaken
  obtain ⟨hreplays, hends⟩ := hsession.replays hworks (Console.works_of_input _) hahead
  exact ⟨rounds, _, hlines, hreplays, hends⟩

end Prompt

end Script
