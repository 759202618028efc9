import Script.Outcome
import Script.Text.Blank

/-!
# The prompt

The prompt reads one line after the other and runs each as a program of its own in the same
interpreter. It shows the value of a line unless that is null, and reports an error without
stopping. The programs read from the same console as the prompt. A stream that fails ends the
prompt.
-/

namespace Script.Prompt

/-- What is written before a line is read. -/
def mark : String := ">>> "

/-- The words that leave the prompt. -/
def farewells : List String := ["exit", "quit"]

/-- What the prompt makes of a line that it has read. -/
inductive Line where
  /-- There was nothing left to read. -/
  | exhausted
  /-- The line is blank. -/
  | blank
  /-- The line leaves the prompt. -/
  | farewell
  /-- The line is a program. -/
  | source (text : String)
  deriving DecidableEq, Repr

/-- Sorts a line, which has its line break still. -/
def Line.ofChars (line : List Char) : Line :=
  if line.isEmpty then .exhausted
  else
    let text := String.ofList (Text.trimBy Text.isBlank line)
    if text.isEmpty then .blank
    else if farewells.contains text then .farewell
    else .source text

/-- What follows from running one line. -/
inductive Reply where
  /-- The prompt goes on, after a report, which may be empty. -/
  | goOn (report : String) (interpreter : Interpreter)
  /-- The prompt cannot go on. -/
  | stop (ending : Ending) (interpreter : Interpreter)

/-- Uses the console of an interpreter. -/
def onConsole {α : Type} (interpreter : Interpreter)
    (use : Console → Except StreamFault α × Console) : Except StreamFault α × Interpreter :=
  let world := interpreter.world
  let (result, console) := use world.console
  (result, { interpreter with world := { world with console := console } })

/-- Writes a text on the console of an interpreter. -/
def write (interpreter : Interpreter) (text : String) : Except StreamFault Unit × Interpreter :=
  onConsole interpreter (·.write text)

/-- Writes the mark and reads a line. -/
def ask (interpreter : Interpreter) : Except StreamFault Line × Interpreter :=
  match write interpreter mark with
  | (.error fault, after) => (.error fault, after)
  | (.ok (), marked) =>
    let (line, after) := onConsole marked (·.readLine)
    (line.map Line.ofChars, after)

/-- Shows the value of a line. The machine is at rest then. -/
def showValue (interpreter : Interpreter) : Value → Reply
  | .null => .goOn "" interpreter
  | value =>
    match interpreter.world.heap.atRest.display value with
    | .error fault => .stop (.fault fault) interpreter
    | .ok text =>
      match write interpreter (text ++ "\n") with
      | (.ok (), after) => .goOn "" after
      | (.error fault, after) => .stop (.fault (.stream fault)) after

/-- Runs a line and shows what it gives. -/
def respond (fuel : Nat) (interpreter : Interpreter) (source : String) : Reply :=
  match interpreter.run fuel source with
  | (.value value, after) => showValue after value
  | (.failed error, after) => .goOn (reportLine (error.format after.world.heap)) after
  | (.fault fault, after) => .stop (.fault fault) after
  | (.outOfFuel, after) => .stop .outOfFuel after

/-- Reads at most so many lines and answers each as `answer` says, after the reports of earlier
ones. -/
def loop (answer : Interpreter → String → Reply) (reports : String) :
    Nat → Interpreter → Outcome
  | 0, interpreter => ⟨.outOfFuel, reports, interpreter⟩
  | lines + 1, interpreter =>
    match ask interpreter with
    | (.error fault, after) => ⟨.fault (.stream fault), reports, after⟩
    | (.ok .exhausted, after) =>
      match write after "\n" with
      | (.ok (), last) => ⟨.code 0, reports, last⟩
      | (.error fault, last) => ⟨.fault (.stream fault), reports, last⟩
    | (.ok .blank, after) => loop answer reports lines after
    | (.ok .farewell, after) => ⟨.code 0, reports, after⟩
    | (.ok (.source text), after) =>
      match answer after text with
      | .goOn report next => loop answer (reports ++ report) lines next
      | .stop ending last => ⟨ending, reports, last⟩

/-- Reads and answers lines until one leaves the prompt or none is left. Every line that is read
has a character, so there are no more lines than characters. -/
def answerAll (answer : Interpreter → String → Reply) (interpreter : Interpreter) : Outcome :=
  loop answer "" (interpreter.world.console.input.length + 1) interpreter

/-- The prompt that runs its lines. -/
def run (interpreter : Interpreter) (fuel : Nat) : Outcome :=
  answerAll (respond fuel) interpreter

/-- The prompt that cannot run a line, but stops at the first one that is a program. -/
def runUnable (interpreter : Interpreter) (ending : Ending) : Outcome :=
  answerAll (fun current _ => .stop ending current) interpreter

end Script.Prompt
