import Script.Eval.Step
import Script.Expr.Parser

/-!
# Running programs

An interpreter keeps its top-level bindings, its functions and classes and its heap from one
program to the next. `Interpreter.run` reads and evaluates a source and says how that ended.
-/

namespace Script

-- Powers are those of the core library, whatever other instances are in scope.
attribute [local instance (high)] instPowNat

/-- What is kept between programs. -/
structure Interpreter where
  globals : Scope
  world : World

/-- Why a program has no value, as far as the language goes. -/
inductive ProgramError where
  | lex (error : LexError)
  | parse (error : ParseError)
  | thrown (error : ErrorId)

/-- How the run of a source ends. -/
inductive RunResult where
  | value (value : Value)
  | failed (error : ProgramError)
  | fault (fault : Fault)
  | outOfFuel

/-- The frames of its own that the machine takes at most to read one level of a source. -/
def framesPerLevel : Nat := 17

/-- How deeply a source may be nested to be run under a limit on the depth of calls. -/
def sourceNestingLimit (maxDepth : Nat) : Nat :=
  framesFor maxDepth / framesPerLevel

theorem source_nesting_limit_mono {maxDepth limit : Nat} (h : maxDepth ≤ limit) :
    sourceNestingLimit maxDepth ≤ sourceNestingLimit limit :=
  Nat.div_le_div_right (frames_for_mono h)

/-- How deeply calls may be nested if nothing else is said. -/
def defaultMaxDepth : Nat := 1000

/-- The highest limit on the depth of calls. The machine counts the frames that it has in a signed
number of 32 bits. -/
def highestMaxDepth : Nat := (2 ^ (31 : Nat) - 1 - hostFrames) / framesPerCall

namespace Interpreter

/-- An interpreter that has run nothing yet. -/
def fresh (maxDepth : Nat) (console : Console) : Interpreter :=
  ⟨.empty, .initial maxDepth console⟩

/-- Performs an operation on the heap of an interpreter. -/
def perform {α : Type} (interpreter : Interpreter) (action : Action α) :
    Except Exit α × Interpreter :=
  let (result, state) := Eval.perform action ⟨interpreter.globals, interpreter.world⟩
  (result, ⟨state.scope, state.world⟩)

/-- Turns the faults that the language has an error for into that error. -/
def raiseFaults (run : Eval Value) : Eval Value := fun state =>
  let throwNew (kind : ErrorKind) (arguments : List String) : Eval Value := do
    let error ← Eval.perform (Action.newError kind arguments)
    throw (.thrown error)
  match run state with
  | (.error (.fault .recursion), state) => throwNew .recursionError [recursionMessage] state
  | (.error (.fault .memory), state) => throwNew .memoryError [] state
  | (.error (.fault (.overflow message)), state) => throwNew .overflowError [message] state
  | result => result

/-- Evaluates a program at the top level. -/
def runProgram (interpreter : Interpreter) (fuel : Nat) (program : Program) :
    RunResult × Interpreter :=
  let run := raiseFaults (Eval.atBoundary (Eval.body (Eval.evaluate fuel) program))
  let world := { interpreter.world with depth := 0 }
  let (result, state) := run ⟨interpreter.globals, world⟩
  let after : Interpreter := ⟨state.scope, state.world⟩
  match result with
  | .ok value => (.value value, after)
  | .error (.thrown error) => (.failed (.thrown error), after)
  | .error (.fault fault) => (.fault fault, after)
  | .error (.jump _) | .error .outOfFuel => (.outOfFuel, after)

/-- Throws a new error without running anything. -/
def throwNew (interpreter : Interpreter) (kind : ErrorKind) (arguments : List String) :
    RunResult × Interpreter :=
  match interpreter.perform (Action.newError kind arguments) with
  | (.ok error, after) => (.failed (.thrown error), after)
  | (.error _, after) => (.outOfFuel, after)

/-- Reads a source and evaluates it at the top level. -/
def runSource (interpreter : Interpreter) (fuel : Nat) (source : String) :
    RunResult × Interpreter :=
  let world := interpreter.world
  let logged : Interpreter :=
    { interpreter with world := { world with log := .sourceRead source.length :: world.log } }
  match Token.tokenize source with
  | .error error => (.failed (.lex error), logged)
  | .ok tokens =>
    match Program.ofTokensWithin true (sourceNestingLimit world.maxDepth) tokens with
    | .ok program => logged.runProgram fuel program
    | .error (.wrong error) => (.failed (.parse error), logged)
    | .error .tooDeep => logged.throwNew .recursionError [recursionMessage]

/-- The fault of a limit on the depth of calls that is too high for the machine. -/
def depthFault? (interpreter : Interpreter) : Option Fault :=
  if interpreter.world.maxDepth ≤ highestMaxDepth then none
  else some (.overflow "Python int too large to convert to C int")

/-- Reads a source and evaluates it at the top level, unless the limit on the depth of calls is
too high for the machine. -/
def run (interpreter : Interpreter) (fuel : Nat) (source : String) : RunResult × Interpreter :=
  match interpreter.depthFault? with
  | none => interpreter.runSource fuel source
  | some fault => (.fault fault, interpreter)

/-- The error value of a failed run. -/
def errorOf (error : ProgramError) : Action ErrorId :=
  match error with
  | .thrown id => pure id
  | .lex error => Action.newError error.fault.kind [error.message]
  | .parse error => Action.newError .syntaxError [error.message]

end Interpreter

namespace Heap

/-- Why an error cannot be shown with the errors it is linked to. -/
inductive ChainFault where
  /-- The links go on for longer than the machine can follow them. -/
  | tooLong
  /-- A note is not a text. -/
  | badNote
  deriving DecidableEq, Repr

/-- The kind of error that the fault amounts to. -/
def ChainFault.kind : ChainFault → ErrorKind
  | .tooLong => .recursionError
  | .badNote => .typeError

/-- The notes of an error, if all are texts. -/
def noteTexts? : List Value → Option (List String)
  | [] => some []
  | .str s :: rest => (noteTexts? rest).map (s :: ·)
  | _ => none

/-- The lines that show an error after those it is linked to, if these are no more than `steps`
errors in all. A cause is shown in place of a context. -/
def chainLines (heap : Heap) : Nat → ErrorId → Except ChainFault (List String)
  | 0, _ => .error .tooLong
  | steps + 1, id => do
    let error := heap.error id
    let before ←
      match error.cause, error.context with
      | some cause, _ => do
        let lines ← chainLines heap steps cause
        pure (lines ++ ["The above exception was the direct cause of the following exception:"])
      | none, some context =>
        if error.suppressContext then pure []
        else do
          let lines ← chainLines heap steps context
          pure (lines ++ ["During handling of the above exception, another exception occurred:"])
      | none, none => pure []
    match noteTexts? (heap.list error.notes).toList with
    | some notes => return before ++ error.format :: notes
    | none => throw .badNote

/-- An error shown with all the errors it is linked to. The machine takes a frame of its own for
each of them, and has so many frames left. -/
def formatChainWithin (heap : Heap) (frames : Nat) (id : ErrorId) : Except ChainFault String := do
  return "\n".intercalate (← heap.chainLines frames id)

/-- An error shown with all the errors it is linked to, where nothing else takes a frame. -/
def formatChain (heap : Heap) (id : ErrorId) : Except ChainFault String :=
  heap.formatChainWithin hostFrames id

end Heap

end Script
