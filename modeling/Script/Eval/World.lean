import Script.Failure
import Script.Scope
import Script.Text.Quoted

/-!
# The world of a program

What a program works on besides the bindings of its current scope: the heap, the functions and
classes defined so far, the depth of calls, the console, and the log.
-/

namespace Script

/-- The faults with which reading fails, by the number of times that the console has been used. -/
def ReadFaults : Type :=
  Nat → Option StreamFault

/-- The faults with which writing a text fails, by the number of times that the console has been
used. -/
def WriteFaults : Type :=
  Nat → String → Option StreamFault

/-- The system refuses every attempt to read, or none. -/
instance : Coe Bool ReadFaults :=
  ⟨fun refuses _ => if refuses then some (.system "read failed") else none⟩

/-- The system refuses every attempt to write, or none. -/
instance : Coe Bool WriteFaults :=
  ⟨fun refuses _ _ => if refuses then some (.system "write failed") else none⟩

/-- Where a program reads and writes. Either may fail at some times, and some texts may not be
written. -/
structure Console where
  input : List Char
  output : String
  /-- How many times the console has been read or written. -/
  uses : Nat
  readsFail : ReadFaults
  writesFail : WriteFaults

namespace Console

/-- A console with some input that never fails. -/
def ofInput (input : String) : Console :=
  ⟨input.toList, "", 0, fun _ => none, fun _ _ => none⟩

/-- The console after it has been used once more. -/
def used (console : Console) : Console :=
  { console with uses := console.uses + 1 }

/-- Writes a text. -/
def write (console : Console) (text : String) : Except StreamFault Unit × Console :=
  match console.writesFail console.uses text with
  | some fault => (.error fault, console.used)
  | none => (.ok (), { console.used with output := console.output ++ text })

/-- The next line with its line break, and the input after it. There is nothing at the end of the
input. -/
def cutLine (input : List Char) : List Char × List Char :=
  let line := input.takeWhile (· ≠ '\n')
  match input.dropWhile (· ≠ '\n') with
  | [] => (line, [])
  | lineBreak :: rest => (line ++ [lineBreak], rest)

/-- Reads the next line. -/
def readLine (console : Console) : Except StreamFault (List Char) × Console :=
  match console.readsFail console.uses with
  | some fault => (.error fault, console.used)
  | none =>
    let (line, rest) := cutLine console.input
    (.ok line, { console.used with input := rest })

/-- A line and what follows it make up the input. -/
theorem cutLine_append (input : List Char) : (cutLine input).1 ++ (cutLine input).2 = input := by
  have parts := List.takeWhile_append_dropWhile (p := (· ≠ '\n')) (l := input)
  rw [cutLine]
  split
  · rename_i exhausted
    rw [exhausted] at parts
    exact parts
  · rename_i lineBreak rest found
    rw [found] at parts
    simpa only [List.append_assoc, List.cons_append, List.nil_append] using parts

/-- Only the end of the input is no line. -/
theorem cutLine_eq_nil_iff (input : List Char) : (cutLine input).1 = [] ↔ input = [] := by
  cases input with
  | nil => simp [cutLine]
  | cons c rest =>
    rw [cutLine]
    by_cases h : c = '\n' <;> simp [h]
    split <;> simp

end Console

/-- What is worth a line in the log. -/
inductive LogEvent where
  /-- A source of so many characters has been read. -/
  | sourceRead (length : Nat)
  /-- A class has been defined. -/
  | classDefined (name : String) (base : Option String)
  /-- A struct has been defined. -/
  | structDefined (name : String)
  /-- An enumeration has been defined. -/
  | enumDefined (name : String)
  /-- A module has been imported under a name. -/
  | imported (target name : String)
  /-- An error has been caught. -/
  | caught (format : String)
  /-- A program has ended with an error, shown with all errors it is linked to. -/
  | programFailed (chain : String)
  deriving DecidableEq, Repr

/-- The text of a line of the log. -/
def LogEvent.message : LogEvent → String
  | .sourceRead length => s!"program cache miss ({length} chars)"
  | .classDefined name base =>
    let baseName := base.getD "None"
    s!"defined class {name} (base={baseName})"
  | .structDefined name => s!"defined struct {name}"
  | .enumDefined name => s!"defined enum {name}"
  | .imported target name =>
    s!"import {Text.quoted target} bound as empty module {Text.quoted name}"
  | .caught format => s!"caught {format}"
  | .programFailed chain => "program failed:\n" ++ chain

/-- What a program works on. -/
structure World where
  heap : Heap
  functions : Table FunctionId
  classes : Table ClassId
  depth : Nat
  console : Console
  log : List LogEvent

namespace World

/-- The world before the first program. -/
def initial (maxDepth : Nat) (console : Console) : World :=
  ⟨.empty maxDepth, .empty, .empty, 0, console, []⟩

/-- How deeply calls may be nested. -/
def maxDepth (world : World) : Nat :=
  world.heap.maxDepth

end World

/-- How a construct leaves its surroundings without an error. -/
inductive Jump where
  | returning (value : Value)
  | breaking
  | continuing

/-- How the evaluation of an expression can end without a value. -/
inductive Exit where
  /-- An error has been thrown. -/
  | thrown (error : ErrorId)
  /-- A function or loop is being left. -/
  | jump (jump : Jump)
  /-- The machine has reported a fault. -/
  | fault (fault : Fault)
  /-- The evaluation has taken more steps than it may. -/
  | outOfFuel

/-- The state of an evaluation. -/
structure EvalState where
  scope : Scope
  world : World

/-- An evaluation changes the state and ends with a result or an exit; the state changes also if
it ends with an exit. -/
abbrev Eval := ExceptT Exit (StateM EvalState)

namespace Eval

variable {α : Type}

/-- Performs an operation on the heap. An error that it raises becomes an error value, which is
thrown. -/
def perform (action : Action α) : Eval α := fun state =>
  match action state.world.heap with
  | .ok (result, heap) => (.ok result, { state with world := { state.world with heap := heap } })
  | .error (.fault fault) => (.error (.fault fault), state)
  | .error (.raised kind message) =>
    match Action.newError kind [message] state.world.heap with
    | .ok (id, heap) =>
      (.error (.thrown id), { state with world := { state.world with heap := heap } })
    | .error _ => (.error (.fault .memory), state)

/-- Throws an error of a kind with a message. -/
def raise (kind : ErrorKind) (message : String) : Eval α :=
  perform (Action.raise kind message)

/-- The heap. -/
def heap : Eval Heap := do
  return (← get).world.heap

/-- The scope. -/
def scope : Eval Scope := do
  return (← get).scope

/-- Replaces the scope. -/
def setScope (scope : Scope) : Eval Unit :=
  modify fun state => { state with scope := scope }

/-- Changes the world. -/
def modifyWorld (change : World → World) : Eval Unit :=
  modify fun state => { state with world := change state.world }

/-- Adds a line to the log. -/
def record (event : LogEvent) : Eval Unit :=
  modifyWorld fun world => { world with log := event :: world.log }

/-- Refuses to bind a name that is frozen or constant. -/
def checkWritable (name : String) : Eval Unit := do
  if (frozenValue? name).isSome then raise .typeError s!"cannot assign to {name}"
  if (← scope).isConstant name then raise .typeError s!"cannot reassign constant '{name}'"

/-- Binds a name. -/
def bindName (name : String) (value : Value) : Eval Unit := do
  checkWritable name
  setScope ((← scope).bind name value)

/-- Binds a name for good. -/
def bindConstant (name : String) (value : Value) : Eval Unit := do
  checkWritable name
  setScope ((← scope).bindConstant name value)

end Eval

end Script
