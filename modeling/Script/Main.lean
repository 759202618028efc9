import Script.CommandLine

/-!
# The program

Reads the console and the file that the command line asks for, and runs the program. All that is
decided here is how a failure of the system to read a file is reported.
-/

namespace Script.Program

-- Powers are those of the core library, whatever other instances are in scope.
attribute [local instance (high)] instPowNat

/-- More steps than a run can take. -/
def stepLimit : Nat := 2 ^ (62 : Nat)

/-- All lines of a stream. -/
partial def readAll (stream : IO.FS.Stream) (before : String) : IO String := do
  let line ← stream.getLine
  if line.isEmpty then return before else readAll stream (before ++ line)

/-- The number of a failure, which the system may give as a negative number of 32 bits. -/
def faultNumber (code : UInt32) : Nat :=
  if code < 2147483648 then code.toNat else (0 - code).toNat

/-- What keeps a file from being read, by the number that the system gives. -/
def fileFault : IO.Error → FileFault
  | .noFileOrDirectory _ _ _ => .notFound
  | .inappropriateType _ code text
  | .invalidArgument _ code text
  | .permissionDenied _ code text
  | .otherError code text =>
    match faultNumber code with
    | 20 => .notADirectory
    | 21 => .isADirectory
    | 36 => .nameTooLong
    | number => .other number text.capitalize
  | _ => .other 5 "Input/output error"

/-- The bytes of a file. -/
def readFile (path : String) : IO (Except FileFault (List UInt8)) := do
  if path.toList.contains '\x00' then return .error .impossiblePath
  try
    let bytes ← IO.FS.readBinFile (Path.ofString path).text
    return .ok bytes.toList
  catch error => return .error (fileFault error)

/-- Runs what settings ask for and gives the exit code. -/
def run (settings : CommandLine.Settings) : IO UInt32 := do
  let input ← readAll (← IO.getStdin) ""
  let contents ←
    match settings.file? with
    | some path => readFile path
    | none => pure (.error .notFound)
  let outcome :=
    CommandLine.launch settings stepLimit (Console.ofInput input) fun _ => contents
  IO.print outcome.interpreter.world.console.output
  IO.eprint outcome.reports
  match outcome.ending.escaped?, outcome.ending with
  | some kind, _ =>
    IO.eprintln kind.name
    return 1
  | none, .code code => return code.toUInt32
  | none, _ => return 1

end Script.Program

/-- Runs the program with the words of a command line. -/
def main (words : List String) : IO UInt32 := do
  match Script.CommandLine.parse words with
  | .ok settings => Script.Program.run settings
  | .error .help =>
    IO.print Script.CommandLine.helpText
    return 0
  | .error .version =>
    IO.print Script.CommandLine.versionLine
    return 0
  | .error (.usage error) =>
    IO.eprint (Script.CommandLine.usageText ++ error.line)
    return 2
