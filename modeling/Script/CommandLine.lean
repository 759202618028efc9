import Script.CommandLine.Word
import Script.Number.Reading
import Script.Prompt
import Script.Text.CaseMap

/-!
# The command line

The program runs a source that is given as an option, or else the file at a path, or else the
prompt. Options take effect one after the other, so that the help and the version are shown only
if all before them was right, and nothing after them matters.
-/

namespace Script.CommandLine

/-- What an option is set to. The separator `--` in the place of a value is dropped and leaves the
option set to nothing, which comes out when the setting is needed. -/
inductive Setting (α : Type) where
  | value (value : α)
  | nothing
  deriving DecidableEq, Repr

/-- What the words of a command line ask for. -/
structure Settings where
  command : Option (Setting String) := none
  path : Option String := none
  logLevel : Setting String := .value "WARNING"
  maxDepth : Setting Nat := .value defaultMaxDepth

/-- The path of the file that has to be read. -/
def Settings.file? (settings : Settings) : Option String :=
  if settings.command.isSome then none else settings.path

/-- Why nothing is run. -/
inductive Stop where
  | help
  | version
  | usage (error : UsageError)
  deriving DecidableEq, Repr

/-- An option is refused because of its value. -/
def refuse {α : Type} (flag : Flag) (fault : ValueFault) : Except Stop α :=
  .error (.usage (.value flag fault))

/-- Reads a level of the log. -/
def readLevel (value : String) : Except ValueFault String :=
  let level := String.ofList (Text.upperText value.toList)
  if logLevels.contains level then .ok level else .error (.notALevel level)

/-- Reads a limit on the depth of calls. -/
def readDepth (value : String) : Except ValueFault Nat :=
  match Number.readInt? 10 (Text.trimBy Text.isPadding value.toList) with
  | none => .error (.notAnInteger value)
  | some depth => if depth < 1 then .error .notPositive else .ok depth.toNat

/-- Reads what an option is set to. -/
def Setting.read {α : Type} (reader : String → Except ValueFault α) (value : String) :
    Except ValueFault (Setting α) :=
  if value = "--" then .ok .nothing else (reader value).map .value

/-- The settings after an option with its value, which is empty for an option that takes none. -/
def apply (settings : Settings) (flag : Flag) (value : String) : Except Stop Settings :=
  match flag with
  | .help => .error .help
  | .version => .error .version
  | .command =>
    match Setting.read .ok value with
    | .ok source => .ok { settings with command := some source }
    | .error fault => refuse flag fault
  | .logLevel =>
    match Setting.read readLevel value with
    | .ok level => .ok { settings with logLevel := level }
    | .error fault => refuse flag fault
  | .maxDepth =>
    match Setting.read readDepth value with
    | .ok depth => .ok { settings with maxDepth := depth }
    | .error fault => refuse flag fault

/-- The options that one word names, and the value it gives to the last of them. -/
structure Cluster where
  flags : List Flag
  value : Option String

/-- The options in a word of short options. The text stands behind the name of the first one. An
option that takes a value takes all of the text; any other leaves it to the options that its
letters name. -/
def cluster (flag : Flag) (text : List Char) : Except Stop Cluster :=
  if flag.takesValue then .ok ⟨[flag], some (String.ofList text)⟩
  else
    match text with
    | [] => refuse flag (.unwanted "")
    | c :: rest =>
      match Flag.ofName? (String.ofList ['-', c]) with
      | none => refuse flag (.unwanted (String.ofList text))
      | some next =>
        if rest.isEmpty then .ok ⟨[flag, next], none⟩
        else do
          let others ← cluster next rest
          return { others with flags := flag :: others.flags }

/-- The options that a word names. Only short options can stand together. -/
def clusterOf (flag : Flag) (name : String) : Option (List Char) → Except Stop Cluster
  | none => .ok ⟨[flag], none⟩
  | some text =>
    if flag.takesValue || name.length = 2 then cluster flag text
    else refuse flag (.unwanted (String.ofList text))

/-- The settings after options, of which the last has the value. -/
def applyAll (settings : Settings) (value : String) : List Flag → Except Stop Settings
  | [] => .ok settings
  | [flag] => apply settings flag value
  | flag :: rest => do
    let next ← apply settings flag ""
    applyAll next value rest

/-- The words after the separator that directly follows the path. -/
def dropSeparator : List Word → List Word
  | .separator :: rest => rest
  | words => words

theorem length_dropSeparator_le (words : List Word) :
    (dropSeparator words).length ≤ words.length := by
  unfold dropSeparator
  split <;> simp

/-- Takes the words in order. The first plain word is the path; words without a meaning are kept
in `extras`. -/
def consume (settings : Settings) (pathTaken : Bool) (extras : List String) (words : List Word) :
    Except Stop (Settings × List String) :=
  match words with
  | [] => .ok (settings, extras)
  | .plain text :: rest =>
    if pathTaken then consume settings true (extras ++ [text]) rest
    else consume { settings with path := some text } true extras (dropSeparator rest)
  | .separator :: rest =>
    if pathTaken then consume settings true (extras ++ ["--"]) rest
    else
      match rest with
      | .plain text :: others => consume { settings with path := some text } true extras others
      | others => consume settings true extras others
  | .unknown text :: rest => consume settings pathTaken (extras ++ [text]) rest
  | .option flag name attached :: rest =>
    match clusterOf flag name attached with
    | .error stop => .error stop
    | .ok named =>
      let last := named.flags.getLast?.getD flag
      match last.takesValue && named.value.isNone, rest with
      | true, .plain text :: others =>
        match applyAll settings text named.flags with
        | .error stop => .error stop
        | .ok next => consume next pathTaken extras others
      | true, _ => refuse last .absent
      | false, rest =>
        match applyAll settings (named.value.getD "") named.flags with
        | .error stop => .error stop
        | .ok next => consume next pathTaken extras rest
termination_by words.length
decreasing_by
  all_goals grind [length_dropSeparator_le]

/-- The settings that a command line asks for. -/
def parse (words : List String) : Except Stop Settings :=
  match Word.ofStrings words with
  | .error error => .error (.usage error)
  | .ok words => do
    let (settings, extras) ← consume {} false [] words
    if extras.isEmpty then return settings else throw (.usage (.unrecognized extras))

/-- Runs what settings ask for with an interpreter. The file at the path is read only if it is
needed. -/
def launchWith (settings : Settings) (fuel : Nat) (interpreter : Interpreter)
    (read : String → Except FileFault (List UInt8)) : Outcome :=
  match settings.command, settings.path with
  | some (.value source), _ => interpreter.runScript fuel source
  | some .nothing, _ =>
    match interpreter.depthFault? with
    | some fault => ⟨.fault fault, "", interpreter⟩
    | none => ⟨.missingSetting, "", interpreter⟩
  | none, some path => interpreter.runFile fuel path (read path)
  | none, none => Prompt.run interpreter fuel

/-- Goes as far as settings without a limit on the depth of calls allow, which is up to the first
source that would be run. -/
def launchUnable (settings : Settings) (interpreter : Interpreter)
    (read : String → Except FileFault (List UInt8)) : Outcome :=
  match settings.command, settings.path with
  | some _, _ => ⟨.missingSetting, "", interpreter⟩
  | none, some path =>
    match interpreter.sourceOfFile path (read path) with
    | .ok _ => ⟨.missingSetting, "", interpreter⟩
    | .error outcome => outcome
  | none, none => Prompt.runUnable interpreter .missingSetting

/-- Runs what settings ask for on a console. -/
def launch (settings : Settings) (fuel : Nat) (console : Console)
    (read : String → Except FileFault (List UInt8)) : Outcome :=
  match settings.logLevel, settings.maxDepth with
  | .nothing, _ => ⟨.missingSetting, "", .fresh defaultMaxDepth console⟩
  | .value _, .value depth => launchWith settings fuel (.fresh depth console) read
  | .value _, .nothing => launchUnable settings (.fresh defaultMaxDepth console) read

/-- The name of the program. -/
def programName : String := "stel"

/-- The name of the program with its version. -/
def versionLine : String := programName ++ " 0.1.0\n"

/-- How the program is called. -/
def usageText : String :=
  "usage: stel [-h] [-c COMMAND]\n" ++
  "            [--log-level \x7bDEBUG,INFO,WARNING,ERROR,CRITICAL\x7d]\n" ++
  "            [--max-call-depth MAX_CALL_DEPTH] [--version]\n" ++
  "            [path]\n"

/-- What the program is for and what its options mean. -/
def helpText : String :=
  usageText ++
  "\nRun a stellang script, a one-line program, or the interactive prompt.\n" ++
  "\npositional arguments:\n" ++
  "  path                  script to run; omit for the interactive prompt\n" ++
  "\noptions:\n" ++
  "  -h, --help            show this help message and exit\n" ++
  "  -c COMMAND, --command COMMAND\n" ++
  "                        program passed in as a string\n" ++
  "  --log-level \x7bDEBUG,INFO,WARNING,ERROR,CRITICAL\x7d\n" ++
  "                        logging verbosity (default from STELLANG_LOG_LEVEL)\n" ++
  "  --max-call-depth MAX_CALL_DEPTH\n" ++
  "                        nested call limit before RecursionError\n" ++
  "  --version             show program's version number and exit\n"

/-- The line that says what is wrong with a command line. -/
def UsageError.line (error : UsageError) : String :=
  s!"{programName}: error: {error.message}\n"

end Script.CommandLine
