import Script.Proofs.Eval.Account
import Script.Proofs.Eval.Input

/-!
# Calls of `input`

Lines are taken from the console by calls of `input` only. `Eval.AsksInput` lists the calls of
`input` that the rules of the constructs make, each with the state in which it is made, and
`Eval.CallsInput` those that are made in the course of an evaluation. If some lines are ahead and no
call is made where exactly these are ahead, then the evaluation leaves them all
(`Eval.evaluate_saves`). Read the other way, whatever line is taken in a run, there has been a call
of `input` when it was the next one (`Interpreter.run_reads`).
-/

namespace Script

namespace Eval

/-- The calls of `input` that the rule of a construct makes, and the states in which it makes
them. -/
inductive AsksInput (ev : Evaluator) : Expr → EvalState → EvalState → Prop where
  | call {callee : Expr} {items : List Expr} {arguments : List Value} {state inner : EvalState}
      (hname : ∀ name, callee = .name name → state.world.functions.get? name = none)
      (hvalues : values ev (callee :: items) state = (.ok (.builtin .input :: arguments), inner)) :
      AsksInput ev (.call callee items) state inner
  | method {object : Expr} {name : String} {items : List Expr} {receiver : Value}
      {arguments : List Value} {state middle inner : EvalState}
      (hvalues : values ev (object :: items) state = (.ok (receiver :: arguments), middle))
      (hreceiver : receiver.HasFields)
      (htarget : getAttribute receiver name middle = (.ok (.builtin .input), inner)) :
      AsksInput ev (.methodCall object name items) state inner

/-- With stops, no other calls are made than without. -/
theorem AsksInput.of_stopped {ev : Evaluator} {questions : Expr → EvalState → Prop} {mark : Heap}
    {expr : Expr} {state inner : EvalState}
    (h : AsksInput (stopped ev questions mark) expr state inner) :
    AsksInput ev expr state inner := by
  cases h with
  | call hname hvalues => exact .call hname (values_of_stopped hvalues)
  | method hvalues hreceiver htarget =>
      exact .method (values_of_stopped hvalues) hreceiver htarget

/-- The call of `input` is made in the course of an evaluation. -/
inductive CallsInput (fuel : Nat) (expr : Expr) (state inner : EvalState) : Prop where
  | intro {rest : Nat} {last : Expr} {final : EvalState}
      (hincludes : Includes fuel expr state (rest + 1) last final)
      (hasks : AsksInput (evaluate rest) last final inner)

variable {α β : Type} {rest : List (List Char)}

/-! ## What leaves the lines alone -/

/-- The evaluation takes no line. -/
def Silent (part : Eval α) : Prop :=
  ∀ state, (part state).2.world.console.ahead = state.world.console.ahead

theorem silent_write (text : String) : Silent (write text) := fun state =>
  (congrArg Console.ahead (console_left (·.write text) state)).trans
    (state.world.console.ahead_write text)

theorem silent_inherited : Inherited Silent where
  blind h state := congrArg Console.ahead (h.console state)
  write := silent_write
  look next _ hpart h state := by
    rw [hpart]
    exact h state state
  andThen {_ _ part} hpart finish hfinish state :=
    (hfinish (part state).1 (part state).2).trans (hpart state)

/-- Where the lines `rest` are ahead, they are still ahead afterwards. -/
def Saves (rest : List (List Char)) (part : Eval α) : Prop :=
  ∀ state, rest <:+ state.world.console.ahead → rest <:+ (part state).2.world.console.ahead

theorem Silent.saves {part : Eval α} (h : Silent part) : Saves rest part :=
  fun state hahead => (h state).symm ▸ hahead

theorem saves_inherited : Inherited (Saves rest) where
  blind h := (silent_inherited.blind h).saves
  write text := (silent_write text).saves
  look next _ hpart h state hahead := by
    rw [hpart]
    exact h state state hahead
  andThen {_ _ part} hpart finish hfinish state hahead :=
    hfinish (part state).1 (part state).2 (hpart state hahead)

/-- What follows has to be looked at only where the first part leads. -/
theorem saves_bind {part : Eval α} {next : α → Eval β} {state : EvalState}
    (hpart : rest <:+ (part state).2.world.console.ahead)
    (hnext : ∀ result after, part state = (.ok result, after) →
      rest <:+ after.world.console.ahead → rest <:+ (next result after).2.world.console.ahead) :
    rest <:+ ((part >>= next) state).2.world.console.ahead := by
  rw [run_bind]
  rcases hrun : part state with ⟨exit | result, after⟩
  · rw [hrun] at hpart
    exact hpart
  · rw [hrun] at hpart
    exact hnext result after hrun hpart

/-! ## What one rule leaves -/

/-- Reading a line leaves the lines behind it. -/
theorem saves_read_line {state : EvalState} (h : rest <:+ state.world.console.ahead)
    (hmore : state.world.console.ahead ≠ rest) :
    rest <:+ (readLine state).2.world.console.ahead := by
  have hleft : (readLine state).2.world.console.ahead = _ :=
    congrArg Console.ahead (console_left (·.readLine) state)
  rw [hleft]
  rcases state.world.console.ahead_read_line with hsame | htail
  · rwa [hsame]
  · rw [htail]
    cases hahead : state.world.console.ahead with
    | nil =>
        rw [hahead] at h hmore
        exact (hmore (List.suffix_nil.mp h).symm).elim
    | cons line later =>
        rw [hahead] at h hmore
        exact (List.suffix_cons_iff.mp h).resolve_left fun heq => hmore heq.symm

/-- A call of `input` leaves the lines behind the next one. -/
theorem saves_input (items : List Value) {state : EvalState}
    (h : rest <:+ state.world.console.ahead) (hmore : state.world.console.ahead ≠ rest) :
    rest <:+ (input items state).2.world.console.ahead := by
  -- Up to the line that is read, no line is taken.
  have hbind {γ δ : Type} {part : Eval γ} {next : γ → Eval δ} {current : EvalState}
      (hpart : Silent part) (hahead : current.world.console.ahead = state.world.console.ahead)
      (hnext : ∀ result after, after.world.console.ahead = state.world.console.ahead →
        rest <:+ (next result after).2.world.console.ahead) :
      rest <:+ ((part >>= next) current).2.world.console.ahead := by
    have hsame := (hpart current).trans hahead
    refine saves_bind (hsame ▸ h) fun result after hrun _ => hnext result after ?_
    rwa [hrun] at hsame
  have hanswer (current : EvalState)
      (hahead : current.world.console.ahead = state.world.console.ahead) :
      rest <:+ ((readLine >>= fun line => (do
        if line.isEmpty then raise .eofError "EOF when reading a line"
        return Value.str (String.ofList
          (Text.trimRightBy (fun c => c = '\r' || c = '\n') line)) : Eval Value))
        current).2.world.console.ahead := by
    refine saves_bind (saves_read_line (hahead ▸ h) (hahead ▸ hmore)) fun line after _ hsaved => ?_
    dsimp only
    split
    · exact saves_inherited.bind (saves_inherited.raise _ _) (fun _ => saves_inherited.pure _)
        after hsaved
    · exact hsaved
  refine hbind (silent_inherited.perform _) rfl fun _ checked hchecked => ?_
  cases items with
  | nil => exact hanswer checked hchecked
  | cons prompt items =>
      refine hbind (silent_inherited.perform _) hchecked fun text shown hshown => ?_
      exact hbind (silent_write text) hshown fun _ written hwritten => hanswer written hwritten

section Rule

variable {ev : Evaluator} (hev : ∀ expr, Saves rest (ev expr))
include hev

theorem saves_call_value {callee : Value} (items : List Value) {state : EvalState}
    (h : rest <:+ state.world.console.ahead)
    (hmore : callee = .builtin .input → state.world.console.ahead ≠ rest) :
    rest <:+ (callValue ev callee items state).2.world.console.ahead := by
  by_cases hinput : callee = .builtin .input
  · subst hinput
    exact saves_input items h (hmore rfl)
  · -- All other values are called without reading.
    let calling : Ingredients := ⟨[], [], [], fun _ => False, True, False, True⟩
    have hrule : Composed calling fun ev => callValue ev callee items :=
      composed_call_value trivial trivial (fun heq => (hinput heq).elim) items
    exact saves_inherited.composed hev hrule False.elim state h

theorem saves_values (exprs : List Expr) : Saves rest (values ev exprs) := by
  have hvalues : Composed (Expr.list exprs).ingredients fun ev => values ev exprs :=
    composed_values fun _ hmem => hmem
  exact saves_inherited.composed hev hvalues False.elim

theorem saves_call {callee : Expr} {items : List Expr} {state : EvalState}
    (h : rest <:+ state.world.console.ahead)
    (hcalls : ∀ inner, AsksInput ev (.call callee items) state inner →
      inner.world.console.ahead ≠ rest) :
    rest <:+ (call ev callee items state).2.world.console.ahead := by
  by_cases hdirect : ∃ name id, callee = .name name ∧ state.world.functions.get? name = some id
  · obtain ⟨name, id, rfl, hname⟩ := hdirect
    rw [call_run_function hname]
    exact saves_inherited.bind (saves_values hev items)
      (fun arguments => saves_inherited.call hev id arguments none) state h
  · have hname (name : String) (hcallee : callee = .name name) :
        state.world.functions.get? name = none :=
      Option.eq_none_iff_forall_ne_some.mpr fun id hid => hdirect ⟨name, id, hcallee, hid⟩
    rw [call_run_value hname]
    refine saves_bind (hev callee state h) fun target first hx hfirst => ?_
    refine saves_bind (saves_values hev items first hfirst) fun arguments inner hxs hinner => ?_
    refine saves_call_value hev arguments hinner fun htarget => ?_
    subst htarget
    exact hcalls inner (.call hname (values_cons hx hxs))

theorem saves_method_call {object : Expr} {name : String} {items : List Expr} {state : EvalState}
    (h : rest <:+ state.world.console.ahead)
    (hcalls : ∀ inner, AsksInput ev (.methodCall object name items) state inner →
      inner.world.console.ahead ≠ rest) :
    rest <:+ (methodCall ev object name items state).2.world.console.ahead := by
  refine saves_bind (hev object state h) fun receiver first hx hfirst => ?_
  refine saves_bind (saves_values hev items first hfirst) fun arguments middle hxs hmiddle => ?_
  have hvalues := values_cons hx hxs
  have hattribute (hreceiver : receiver.HasFields) :
      rest <:+ ((getAttribute receiver name >>= fun target => callValue ev target arguments)
        middle).2.world.console.ahead := by
    have hget : Composed (Expr.getAttribute object name).ingredients fun _ =>
        getAttribute receiver name :=
      composed_get_attribute receiver name
    refine saves_bind (saves_inherited.composed hev hget False.elim middle hmiddle)
      fun target inner htarget hinner => ?_
    refine saves_call_value hev arguments hinner fun hinput => ?_
    subst hinput
    exact hcalls inner (.method hvalues hreceiver htarget)
  cases receiver with
  | object | classObject => exact hattribute trivial
  | _ => exact saves_inherited.perform _ middle hmiddle

/-- A rule leaves the lines, unless it calls `input` when just these are ahead. -/
theorem saves_step (fuel : Nat) {expr : Expr} {state : EvalState}
    (h : rest <:+ state.world.console.ahead)
    (hcalls : ∀ inner, AsksInput ev expr state inner → inner.world.console.ahead ≠ rest) :
    rest <:+ (step ev fuel expr state).2.world.console.ahead := by
  by_cases hreads : expr.Reads
  · cases expr with
    | call => exact saves_call hev h hcalls
    | methodCall => exact saves_method_call hev h hcalls
    | _ => exact hreads.elim
  · exact saves_inherited.step hev fuel expr (fun hexpr => (hreads hexpr).elim) state h

end Rule

/-! ## What whole evaluations leave -/

/-- An evaluation leaves the lines, unless `input` is called in its course when just these are
ahead. -/
theorem evaluate_saves {fuel : Nat} {expr : Expr} {state : EvalState}
    (h : rest <:+ state.world.console.ahead)
    (hcalls : ∀ inner, CallsInput fuel expr state inner → inner.world.console.ahead ≠ rest) :
    rest <:+ (evaluate fuel expr state).2.world.console.ahead := by
  induction fuel generalizing expr state with
  | zero => exact h
  | succ fuel ih =>
      -- Stopped wherever a part would take one of the lines, no part takes any.
      let takes (part : Expr) (inner : EvalState) : Prop :=
        rest <:+ inner.world.console.ahead ∧
          ¬rest <:+ (evaluate fuel part inner).2.world.console.ahead
      have hstopped (part : Expr) :
          Saves rest (stopped (evaluate fuel) takes (markedHeap fuel expr state) part) := by
        intro inner hinner
        unfold stopped
        split
        · exact hinner
        · rename_i hnot
          exact not_not.mp fun hlost => hnot ⟨hinner, hlost⟩
      have hstep := saves_step hstopped fuel h fun inner hasks =>
        hcalls inner ⟨.here _ expr state, hasks.of_stopped⟩
      have hsame : step (stopped (evaluate fuel) takes (markedHeap fuel expr state)) fuel expr
          state = step (evaluate fuel) fuel expr state := by
        by_contra hdiffers
        obtain ⟨part, inner, htakes, hconsults⟩ := exists_consulted marked_heap_ne hdiffers
        refine htakes.2 (ih htakes.1 fun asked hasked => ?_)
        obtain ⟨hincludes, hasks⟩ := hasked
        exact hcalls asked ⟨.inside hconsults hincludes, hasks⟩
      rwa [hsame] at hstep

end Eval

namespace Interpreter

open Eval

/-- The call of `input` is made in the run of a source. -/
def CallsInput (interpreter : Interpreter) (fuel : Nat) (source : String) (inner : EvalState) :
    Prop :=
  ∃ program, Program.Reads interpreter.world.maxDepth source program ∧
    Eval.CallsInput (fuel + 1) (.block program)
      (interpreter.withLog (.sourceRead source.length :: interpreter.world.log)).started inner

/-- A program takes the lines that its statements take. -/
theorem ahead_run_program (interpreter : Interpreter) (fuel : Nat) (program : Program) :
    (interpreter.runProgram fuel program).2.world.console.ahead =
      (evaluate (fuel + 1) (.block program) interpreter.started).2.world.console.ahead := by
  let outcome := body (evaluate fuel) program interpreter.started
  have hboundary := silent_inherited.after_boundary outcome.1 outcome.2
  have hfaults := silent_inherited.after_faults (atBoundary (fun _ => outcome) outcome.2).1
    (atBoundary (fun _ => outcome) outcome.2).2
  rw [run_program_eq]
  exact hfaults.trans hboundary

/-- A source takes no line if it is no program. -/
theorem ahead_run_of_not_reads (interpreter : Interpreter) (fuel : Nat) {source : String}
    (h : ∀ program, ¬Program.Reads interpreter.world.maxDepth source program) :
    (interpreter.run fuel source).2.world.console.ahead = interpreter.world.console.ahead := by
  unfold run runSource
  split
  · split
    · rfl
    · rename_i tokens htokens
      dsimp only
      split
      · rename_i program hprogram
        exact (h program ⟨tokens, htokens, hprogram⟩).elim
      · rfl
      · rfl
  · rfl

/-- Whatever lines are taken in a run, `input` has been called when the first of them was the
next. -/
theorem exists_calls_input {interpreter : Interpreter} {fuel : Nat} {source : String}
    {rest : List (List Char)} (h : rest <:+ interpreter.world.console.ahead)
    (hlost : ¬rest <:+ (interpreter.run fuel source).2.world.console.ahead) :
    ∃ inner, interpreter.CallsInput fuel source inner ∧ inner.world.console.ahead = rest := by
  by_contra hnone
  refine hlost ?_
  by_cases hreads : ∃ program, Program.Reads interpreter.world.maxDepth source program
  · obtain ⟨program, hprogram⟩ := hreads
    cases hdepth : interpreter.depthFault? with
    | some fault =>
        unfold run
        rw [hdepth]
        exact h
    | none =>
        rw [run_eq hdepth hprogram, ahead_run_program]
        exact evaluate_saves h fun inner hcalls hahead =>
          hnone ⟨inner, ⟨program, hprogram, hcalls⟩, hahead⟩
  · rwa [ahead_run_of_not_reads interpreter fuel fun program hprogram => hreads ⟨program, hprogram⟩]

/-- The run of a source reads some of the lines that are ahead and leaves the later ones: for each
line that it reads there is a call of `input` when this line is the next one. -/
structure RunReads (interpreter : Interpreter) (fuel : Nat) (source : String)
    (taken later : List (List Char)) : Prop where
  ahead : interpreter.world.console.ahead = taken ++ later
  left : (interpreter.run fuel source).2.world.console.ahead = later
  calls : ∀ first line others, taken = first ++ line :: others →
    ∃ inner, interpreter.CallsInput fuel source inner ∧
      inner.world.console.ahead = line :: (others ++ later)

/-- Every run reads the lines that it does not leave. -/
theorem run_reads {interpreter : Interpreter} {fuel : Nat} {source : String}
    {taken later : List (List Char)} (hahead : interpreter.world.console.ahead = taken ++ later)
    (hleft : (interpreter.run fuel source).2.world.console.ahead = later) :
    interpreter.RunReads fuel source taken later := by
  refine ⟨hahead, hleft, fun first line others htaken => exists_calls_input ?_ fun hsaved => ?_⟩
  · rw [hahead, htaken, List.append_assoc]
    exact List.suffix_append first (line :: others ++ later)
  · rw [hleft] at hsaved
    have hlength := hsaved.length_le
    rw [List.length_cons, List.length_append] at hlength
    omega

/-- A run reads the same lines whatever is behind them, unless it has left no line: then it may have
met the end of the input. -/
theorem RunReads.with_console {interpreter : Interpreter} {fuel : Nat} {source : String}
    {taken later behind : List (List Char)} (h : interpreter.RunReads fuel source taken later)
    {console : Console} (hworks : interpreter.world.console.Works) (hworks' : console.Works)
    (hahead : console.ahead = taken ++ behind) (hend : later = [] → behind = []) :
    (interpreter.withConsole console).RunReads fuel source taken behind := by
  obtain ⟨htaken, rfl, -⟩ := h
  obtain ⟨console', hrun, -, -, hleft⟩ := run_with_console hworks hworks' htaken hahead hend
  refine run_reads hahead ?_
  rw [hrun]
  exact hleft

end Interpreter

end Script
