import Script.Interpreter

/-!
# Sessions

A session is an interpreter whose top-level bindings are also read and changed from outside. A
source is run in the session itself or apart from it: an interpreter apart knows none of the
session's functions, classes and constants, but its values live on the same heap and it talks to
the same console.
-/

namespace Script

namespace Interpreter

/-- An interpreter apart from another one, with some bindings to begin with. -/
def apart (interpreter : Interpreter) (bindings : Table Value) : Interpreter :=
  let world := interpreter.world
  ⟨⟨bindings, []⟩,
    { world with
      heap := world.heap.withLimit defaultMaxDepth
      functions := .empty
      classes := .empty
      depth := 0 }⟩

/-- An interpreter after one apart from it has changed what they share. -/
def rejoin (interpreter other : Interpreter) : Interpreter :=
  { interpreter with
    world := { interpreter.world with
      heap := other.world.heap.withLimit interpreter.world.maxDepth
      console := other.world.console
      log := other.world.log } }

/-- Runs a source apart, and says which bindings are there in the end. -/
def runApart (interpreter : Interpreter) (fuel : Nat) (bindings : Table Value)
    (source : String) : RunResult × Table Value × Interpreter :=
  let (result, other) := (interpreter.apart bindings).run fuel source
  (result, other.globals.bindings, interpreter.rejoin other)

/-- Turns an error of the language into a value. Faults stay what they are. -/
def catchError (result : RunResult) (interpreter : Interpreter) : RunResult × Interpreter :=
  match result with
  | .failed error =>
    match interpreter.perform (errorOf error) with
    | (.ok id, after) => (.value (.error id), after)
    | (.error _, after) => (.outOfFuel, after)
  | other => (other, interpreter)

/-- Binds a name without asking whether it is constant. -/
def setGlobal (interpreter : Interpreter) (name : String) (value : Value) : Interpreter :=
  { interpreter with globals := interpreter.globals.bind name value }

/-- The text printed so far. -/
def output (interpreter : Interpreter) : String :=
  interpreter.world.console.output

/-- The interpreter without the text printed so far. -/
def clearOutput (interpreter : Interpreter) : Interpreter :=
  let world := interpreter.world
  { interpreter with world := { world with console := { world.console with output := "" } } }

end Interpreter

namespace Heap

/-- Every binding of the first list is found in a table, with the same or an equal value. -/
def boundAlike (heap : Heap) (table : Table Value) : List (String × Value) → Except Fault Bool
  | [] => .ok true
  | (name, value) :: rest =>
    match table.get? name with
    | none => .ok false
    | some other => do
      if ← heap.sameOrEqual value other then boundAlike heap table rest else return false

/-- Two tables bind the same names to the same or equal values, in any order. -/
def sameBindings (heap : Heap) (left right : Table Value) : Except Fault Bool :=
  if left.size = right.size then heap.boundAlike right left.entries else .ok false

end Heap

namespace Session

/-- What an evaluation may be asked of. -/
inductive Subject where
  | source (text : String)
  | session
  | bindings
  | other

/-- Why an evaluation makes no sense. -/
inductive FormError where
  /-- Only a source can be evaluated in given surroundings. -/
  | surroundings
  /-- The subject is nothing that can evaluate or be evaluated. -/
  | subject
  deriving DecidableEq, Repr

/-- The text of an evaluation that makes no sense. -/
def FormError.message : FormError → String
  | .surroundings => "evaluate(env) form takes exactly one argument"
  | .subject =>
    "evaluate() expects either source text, an EvaluationEnvironment, or a mapping"

/-- Refuses evaluations that make no sense: only a source can have surroundings, and only a
session or bindings can take its place without them. -/
def checkForm (subject : Subject) (hasSurroundings : Bool) : Except FormError Unit :=
  match subject, hasSurroundings with
  | .source _, _ => .ok ()
  | _, true => .error .surroundings
  | .session, false | .bindings, false => .ok ()
  | .other, false => .error .subject

/-- What can be asked of a session. -/
inductive Request where
  /-- Run a source in the session. -/
  | run (source : String)
  /-- Run a source in the session; an error is the value. -/
  | runCatching (source : String)
  /-- Run a source apart, without bindings. -/
  | runApart (source : String)
  /-- Run a source apart, without bindings; an error is the value. -/
  | runApartCatching (source : String)
  /-- Run a source apart, beginning with the bindings of the session. -/
  | runCopy (source : String)
  /-- The value of a name. -/
  | get (name : String)
  /-- Bind a name to the value of a source that is run apart. -/
  | set (name source : String)
  /-- Forget a name. -/
  | erase (name : String)
  /-- Is the name bound? -/
  | contains (name : String)
  /-- The names that are bound. -/
  | names
  /-- The number of names. -/
  | size
  /-- Does a source, run apart, leave the bindings of the session? -/
  | compare (source : String)
  /-- Evaluate something that may not fit. -/
  | evaluate (subject : Subject) (hasSurroundings : Bool)

/-- What a session answers. -/
inductive Answer where
  /-- A source has been run, or a name has a value. -/
  | result (result : RunResult)
  | done
  | truth (value : Bool)
  | names (names : List String)
  | size (size : Nat)
  /-- The name is not bound. -/
  | missing
  /-- Bindings could not be compared. -/
  | fault (fault : Fault)
  /-- The evaluation makes no sense. -/
  | misused (error : FormError)

/-- Answers one request. -/
def answer (session : Interpreter) (fuel : Nat) : Request → Answer × Interpreter
  | .run source =>
    let (result, after) := session.run fuel source
    (.result result, after)
  | .runCatching source =>
    let (result, after) := session.run fuel source
    let (result, after) := Interpreter.catchError result after
    (.result result, after)
  | .runApart source =>
    let (result, _, after) := session.runApart fuel .empty source
    (.result result, after)
  | .runApartCatching source =>
    let (result, _, after) := session.runApart fuel .empty source
    let (result, after) := Interpreter.catchError result after
    (.result result, after)
  | .runCopy source =>
    let (result, _, after) := session.runApart fuel session.globals.bindings source
    (.result result, after)
  | .get name =>
    match session.globals.get? name with
    | some value => (.result (.value value), session)
    | none => (.missing, session)
  | .set name source =>
    match session.runApart fuel .empty source with
    | (.value value, _, after) => (.done, after.setGlobal name value)
    | (result, _, after) => (.result result, after)
  | .erase name =>
    if (session.globals.get? name).isSome then
      (.done, { session with globals := session.globals.erase name })
    else (.missing, session)
  | .contains name => (.truth (session.globals.get? name).isSome, session)
  | .names => (.names session.globals.bindings.names, session)
  | .size => (.size session.globals.bindings.size, session)
  | .compare source =>
    match session.runApart fuel .empty source with
    | (.value _, bindings, after) =>
      match after.world.heap.atRest.sameBindings session.globals.bindings bindings with
      | .ok same => (.truth same, after)
      | .error fault => (.fault fault, after)
    | (result, _, after) => (.result result, after)
  | .evaluate subject hasSurroundings =>
    match checkForm subject hasSurroundings with
    | .ok () => (.done, session)
    | .error error => (.misused error, session)

/-- Answers a request and says what was printed meanwhile. -/
def step (session : Interpreter) (fuel : Nat) (request : Request) :
    Answer × String × Interpreter :=
  let (reply, after) := answer session.clearOutput fuel request
  (reply, after.output, after)

/-- Binds names to the values of sources, each of which is run apart. The first source without a
value decides. -/
def seed (session : Interpreter) (fuel : Nat) :
    List (String × String) → Except RunResult Unit × Interpreter
  | [] => (.ok (), session)
  | (name, source) :: rest =>
    match session.runApart fuel .empty source with
    | (.value value, _, after) => seed (after.setGlobal name value) fuel rest
    | (result, _, after) => (.error result, after)

end Session

end Script
