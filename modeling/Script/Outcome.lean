import Script.Files
import Script.Interpreter

/-!
# Outcomes of whole programs

A program that is run for its effects ends with an exit code. An error of the language is
reported in a line of its own and gives the exit code one; a fault of the machine gives none.
-/

namespace Script

/-- How a program that is run for its effects ends. -/
inductive Ending where
  | code (code : Nat)
  /-- The machine has reported a fault. -/
  | fault (fault : Fault)
  /-- An error cannot be shown with the errors it is linked to. -/
  | chainFault (fault : Heap.ChainFault)
  /-- No file can have the path of the program. -/
  | impossiblePath
  /-- A setting that the program needs has been left without a value. -/
  | missingSetting
  | outOfFuel
  deriving DecidableEq, Repr

/-- The kind of error that keeps a program from ending with a code. -/
def Ending.escaped? : Ending → Option ErrorKind
  | .fault reported => some reported.kind
  | .chainFault reported => some reported.kind
  | .impossiblePath => some .valueError
  | .missingSetting => some .typeError
  | .code _ | .outOfFuel => none

/-- What a program leaves behind: how it ended, the errors it reported, and the interpreter. -/
structure Outcome where
  ending : Ending
  reports : String
  interpreter : Interpreter

/-- The line that reports an error. -/
def reportLine (format : String) : String :=
  "Error: " ++ format ++ "\n"

namespace ProgramError

/-- An error with its kind and its message. -/
def format (heap : Heap) : ProgramError → String
  | .thrown id => (heap.error id).format
  | .lex error => s!"{error.fault.kind.name}({error.message})"
  | .parse error => s!"{ErrorKind.syntaxError.name}({error.message})"

/-- An error shown with all the errors it is linked to, if the machine has so many frames left. -/
def formatChainWithin (heap : Heap) (frames : Nat) :
    ProgramError → Except Heap.ChainFault String
  | .thrown id => heap.formatChainWithin frames id
  | error => .ok (error.format heap)

end ProgramError

namespace Interpreter

/-- Adds a line to the log. -/
def record (interpreter : Interpreter) (event : LogEvent) : Interpreter :=
  let world := interpreter.world
  { interpreter with world := { world with log := event :: world.log } }

/-- Runs a source as a whole program. After that the machine has so many frames left to show an
error. -/
def runScriptWithin (interpreter : Interpreter) (frames fuel : Nat) (source : String) : Outcome :=
  match interpreter.run fuel source with
  | (.value _, after) => ⟨.code 0, "", after⟩
  | (.fault fault, after) => ⟨.fault fault, "", after⟩
  | (.outOfFuel, after) => ⟨.outOfFuel, "", after⟩
  | (.failed error, after) =>
    let heap := after.world.heap
    match error.formatChainWithin heap frames with
    | .error fault => ⟨.chainFault fault, "", after⟩
    | .ok chain =>
      ⟨.code 1, reportLine (error.format heap), after.record (.programFailed chain)⟩

/-- Runs a source as a whole program, where nothing else takes a frame. -/
def runScript (interpreter : Interpreter) (fuel : Nat) (source : String) : Outcome :=
  interpreter.runScriptWithin hostFrames fuel source

/-- Reports an error of a kind without running anything. -/
def refuse (interpreter : Interpreter) (kind : ErrorKind) (message : String) : Outcome :=
  ⟨.code 1, reportLine s!"{kind.name}({message})", interpreter⟩

/-- The source of a program in a file, or the outcome if there is none. -/
def sourceOfFile (interpreter : Interpreter) (path : String)
    (contents : Except FileFault (List UInt8)) : Except Outcome String :=
  match contents with
  | .error .notFound => .error (interpreter.refuse .fileNotFoundError s!"No such file: {path}")
  | .error fault =>
    match fault.description? with
    | some (number, text) =>
      let shown := Text.quoted (Path.ofString path).text
      .error (interpreter.refuse .osError s!"{path}: [Errno {number}] {text}: {shown}")
    | none => .error ⟨.impossiblePath, "", interpreter⟩
  | .ok bytes =>
    match Text.sourceOf bytes with
    | .ok source => .ok source
    | .error error => .error (interpreter.refuse .osError s!"{path}: {error.message}")

/-- Runs the program in a file. -/
def runFile (interpreter : Interpreter) (fuel : Nat) (path : String)
    (contents : Except FileFault (List UInt8)) : Outcome :=
  match interpreter.sourceOfFile path contents with
  | .ok source => interpreter.runScript fuel source
  | .error outcome => outcome

end Interpreter

end Script
