import Script.Text.Numeral
import Script.Text.Quoted
import Script.Text.Search

/-!
# Words of a command line

A word of a command line names an option, with or without a value, or stands for itself. An option
may be written by any beginning of its long name that no other option shares; a short option may
have its value directly behind it, and a long one behind an equals sign. After the first `--` all
words stand for themselves.
-/

namespace Script.CommandLine

/-- The options of the program. -/
inductive Flag where
  | help
  | command
  | logLevel
  | maxDepth
  | version
  deriving DecidableEq, Repr

namespace Flag

/-- All options. -/
def all : List Flag := [.help, .command, .logLevel, .maxDepth, .version]

/-- The names of an option. -/
def names : Flag → List String
  | .help => ["-h", "--help"]
  | .command => ["-c", "--command"]
  | .logLevel => ["--log-level"]
  | .maxDepth => ["--max-call-depth"]
  | .version => ["--version"]

/-- The option takes a value. -/
def takesValue : Flag → Bool
  | .help | .version => false
  | .command | .logLevel | .maxDepth => true

/-- An option as it is called in a message. -/
def title (flag : Flag) : String :=
  "/".intercalate flag.names

/-- All names of options, each with its option. -/
def named : List (String × Flag) :=
  all.flatMap fun flag => flag.names.map fun name => (name, flag)

/-- The option of a name. -/
def ofName? (name : String) : Option Flag :=
  named.lookup name

end Flag

/-- The names of the levels of the log. -/
def logLevels : List String := ["DEBUG", "INFO", "WARNING", "ERROR", "CRITICAL"]

/-- What is wrong with the value of an option. -/
inductive ValueFault where
  /-- There is none. -/
  | absent
  /-- The option takes none. -/
  | unwanted (value : String)
  /-- It is no integer. -/
  | notAnInteger (value : String)
  /-- It is less than one. -/
  | notPositive
  /-- It is no level of the log. -/
  | notALevel (value : String)
  deriving DecidableEq, Repr

/-- The text of what is wrong with a value. -/
def ValueFault.message : ValueFault → String
  | .absent => "expected one argument"
  | .unwanted value => s!"ignored explicit argument {Text.quoted value}"
  | .notAnInteger value => s!"invalid _positive_int value: {Text.quoted value}"
  | .notPositive => "must be at least 1"
  | .notALevel value =>
    let choices := ", ".intercalate (logLevels.map Text.quoted)
    s!"invalid choice: {Text.quoted value} (choose from {choices})"

/-- What is wrong with a command line. -/
inductive UsageError where
  /-- A word may name several options. -/
  | ambiguous (word : String) (names : List String)
  /-- The value of an option is wrong. -/
  | value (flag : Flag) (fault : ValueFault)
  /-- Some words have no meaning. -/
  | unrecognized (words : List String)
  deriving DecidableEq, Repr

/-- The text of what is wrong with a command line. -/
def UsageError.message : UsageError → String
  | .ambiguous word names =>
    let candidates := ", ".intercalate names
    s!"ambiguous option: {word} could match {candidates}"
  | .value flag fault => s!"argument {flag.title}: {fault.message}"
  | .unrecognized words =>
    let listed := " ".intercalate words
    s!"unrecognized arguments: {listed}"

/-- What a word of a command line is. -/
inductive Word where
  /-- It stands for itself. -/
  | plain (text : String)
  /-- It ends the options. -/
  | separator
  /-- It names an option, and may have text behind the name: directly, or after an equals
  sign. -/
  | option (flag : Flag) (name : String) (attached : Option (List Char))
  /-- It looks like an option but names none. -/
  | unknown (text : String)
  deriving DecidableEq, Repr

namespace Word

/-- The parts of a text before and after its first equals sign. -/
def cutAtEquals? (text : List Char) : Option (List Char × List Char) :=
  match text.dropWhile (· ≠ '=') with
  | [] => none
  | _ :: rest => some (text.takeWhile (· ≠ '='), rest)

/-- The text is a negative decimal, perhaps with a point before its last digits. One line feed
may stand at the end. -/
def isNegativeNumber (text : List Char) : Bool :=
  let isDecimal (c : Char) : Bool := (Text.decimalValue? c).isSome
  let trimmed := if text.getLast? = some '\n' then text.dropLast else text
  match trimmed with
  | '-' :: rest =>
    match rest.dropWhile isDecimal with
    | [] => !rest.isEmpty
    | '.' :: fraction => !fraction.isEmpty && fraction.all isDecimal
    | _ => false
  | _ => false

/-- An option that a word may name: its name, the option and the text behind the name. -/
structure Candidate where
  name : String
  flag : Flag
  attached : Option (List Char)

/-- The options that a beginning of their names may stand for. -/
def begunBy (beginning : List Char) (attached : Option (List Char)) : List Candidate :=
  Flag.named.filterMap fun (name, flag) =>
    if beginning.isPrefixOf name.toList then some ⟨name, flag, attached⟩ else none

/-- The options that a word may name which is no name itself. -/
def candidates (text : List Char) : List Candidate :=
  match text with
  | '-' :: '-' :: _ =>
    match cutAtEquals? text with
    | some (beginning, value) => begunBy beginning (some value)
    | none => begunBy text none
  | '-' :: c :: rest =>
    Flag.named.filterMap fun (name, flag) =>
      if name.toList = ['-', c] then some ⟨name, flag, some rest⟩
      else if text.isPrefixOf name.toList then some ⟨name, flag, none⟩
      else none
  | _ => []

/-- The option that a word names by its full name, with the value behind an equals sign. -/
def byFullName? (text : List Char) : Option Word :=
  let name := String.ofList text
  match Flag.ofName? name with
  | some flag => some (.option flag name none)
  | none => do
    let (front, value) ← cutAtEquals? text
    let name := String.ofList front
    let flag ← Flag.ofName? name
    return .option flag name (some value)

/-- What a word is that stands before any separator. -/
def ofString (text : String) : Except UsageError Word :=
  let chars := text.toList
  match chars with
  | '-' :: _ :: _ =>
    match byFullName? chars with
    | some word => .ok word
    | none =>
      match candidates chars with
      | [] =>
        if isNegativeNumber chars || chars.contains ' ' then .ok (.plain text)
        else .ok (.unknown text)
      | [candidate] => .ok (.option candidate.flag candidate.name candidate.attached)
      | several => .error (.ambiguous text (several.map (·.name)))
  | _ => .ok (.plain text)

/-- What the words of a command line are. -/
def ofStrings : List String → Except UsageError (List Word)
  | [] => .ok []
  | text :: rest =>
    if text = "--" then .ok (.separator :: rest.map .plain)
    else do
      let word ← ofString text
      let words ← ofStrings rest
      return word :: words

end Word

end Script.CommandLine
