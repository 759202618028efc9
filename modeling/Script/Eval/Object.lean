import Script.Builtin.Call
import Script.Builtin.Function
import Script.Eval.World
import Script.Path

/-!
# Names, attributes, items and input and output

The parts of evaluation that evaluate no expression themselves: looking up names and attributes,
reading and writing items, defining classes, and talking to the console.
-/

namespace Script

namespace World

/-- What a name means: the nearest of a binding, a function, a class, a fixed value and a
built-in function. -/
def lookup? (world : World) (scope : Scope) (name : String) : Option Value :=
  scope.get? name
    |>.or ((world.functions.get? name).map .function)
    |>.or ((world.classes.get? name).map .classObject)
    |>.or (frozenValue? name)
    |>.or ((BuiltinFunction.ofName? name).map .builtin)

end World

namespace Eval

/-- The value of a name. -/
def lookup (name : String) : Eval Value := do
  let state ← get
  match state.world.lookup? state.scope name with
  | some value => return value
  | none => raise .nameError s!"name '{name}' is not defined"

/-- The class that a name means: a binding comes before the table of classes. -/
def lookupClass (name : String) : Eval ClassId := do
  let state ← get
  let value :=
    (state.scope.get? name).or ((state.world.classes.get? name).map .classObject)
  match value with
  | none | some .null => raise .nameError s!"name '{name}' is not defined"
  | some (.classObject id) => return id
  | some _ => raise .typeError s!"'{name}' is not a class"

/-- The attribute of an instance: a field of its own, a default of its class, or a method. -/
def instanceAttribute (id : InstanceId) (name : String) : Eval Value := do
  let heap ← heap
  let contents := heap.instanceOf id
  match (contents.fields.get? name).or (heap.findField? contents.classId name) with
  | some value => return value
  | none =>
    match heap.findMethod? contents.classId name with
    | some method => perform do return .boundMethod (← Action.newMark) id method
    | none =>
      let className := (heap.classOf id).name
      raise .attributeError s!"'{className}' object has no attribute '{name}'"

/-- The attribute of a class: a variant of an enumeration, or a default or method of a class. -/
def classAttribute (id : ClassId) (name : String) : Eval Value := do
  let heap ← heap
  let definition := heap.classDef id
  if definition.kind = .enum then
    if definition.variants.contains name then return .enumVariant definition.name name
    else raise .attributeError s!"enum '{definition.name}' has no variant '{name}'"
  else
    match (heap.findField? id name).or ((heap.findMethod? id name).map .function) with
    | some value => return value
    | none =>
      raise .attributeError s!"type object '{definition.name}' has no attribute '{name}'"

/-- The attribute of a value. -/
def getAttribute (object : Value) (name : String) : Eval Value :=
  match object with
  | .object id => instanceAttribute id name
  | .classObject id => classAttribute id name
  | _ => perform (Builtin.getAttribute object name)

/-- Binds an attribute of an instance; a struct has only the fields of its definition. -/
def setAttribute (object : Value) (name : String) (value : Value) : Eval Unit := do
  let heap ← heap
  match object with
  | .object id =>
    let definition := heap.classOf id
    if definition.kind = .struct && !definition.fields.contains name then
      raise .attributeError s!"struct '{definition.name}' has no field '{name}'"
    perform (Action.setField id name value)
  | _ =>
    raise .attributeError s!"'{heap.typeName object}' object has no attribute '{name}'"

end Eval

namespace Builtin

open Action

/-- A place in a collection that has to be an integer from zero up to its length. The length is
asked for only if the place is not negative. -/
def requirePlace (collection index : Value) (length : Action Nat) (complaint : String) :
    Action Nat := do
  match index with
  | .int n =>
    let outside : Action Unit := do
      let name ← typeName collection
      raise .indexError s!"{name} {complaint}"
    if n < 0 then outside
    if (← length) ≤ n.toNat then outside
    return n.toNat
  | _ =>
    let name ← typeName collection
    let indexName ← typeName index
    raise .typeError s!"{name} indices must be integers, not {indexName}"

/-- The item of a collection at a place or under a key. -/
def getItem (collection index : Value) : Action Value := do
  let heap ← get
  let place (length : Nat) : Action Nat :=
    requirePlace collection index (pure length) "index out of range"
  match collection with
  | .dict id =>
    ensureHashable index
    match (heap.dict id).get? index with
    | some value => return value
    | none => raise .keyError (← display index)
  | .list id => return (heap.list id).getD (← place (heap.list id).size) .null
  | .tuple _ items => return items.getD (← place items.length) .null
  | .str s =>
    let chars := s.toList
    return .str (String.singleton (chars.getD (← place chars.length) default))
  | .bytes bytes => return byteValue (bytes.getD (← place bytes.length) 0)
  | .bytearray id =>
    let bytes := heap.bytearray id
    return byteValue (bytes.getD (← place bytes.length) 0)
  | .range range =>
    let place ← requirePlace collection index (ofFault (Heap.rangeLength range))
      "index out of range"
    return .int (range.get place)
  | _ =>
    let name ← typeName collection
    raise .typeError s!"'{name}' object is not subscriptable"

/-- Replaces the item of a list or byte array at a place, or binds a key of a dictionary. -/
def setItem (collection index value : Value) : Action Unit := do
  let heap ← get
  let place (length : Nat) : Action Nat :=
    requirePlace collection index (pure length) "assignment index out of range"
  match collection with
  | .dict id =>
    ensureHashable index
    setDict id (·.insert index value)
  | .list id =>
    let place ← place (heap.list id).size
    setList id fun items => items.setIfInBounds place value
  | .bytearray id =>
    let place ← place (heap.bytearray id).length
    match value with
    | .int n =>
      if n < 0 || 255 < n then raise .valueError "byte must be in range(0, 256)"
      setBytearray id fun bytes => bytes.set place (UInt8.ofNat n.toNat)
    | _ => raise .valueError "byte must be in range(0, 256)"
  | _ =>
    let name ← typeName collection
    raise .typeError s!"'{name}' object does not support item assignment"

/-- The error that a thrown value stands for: itself, an exception with a text, or an error of the
kind whose constructor it is. -/
def toError (value : Value) : Action ErrorId :=
  match value with
  | .error id => pure id
  | .str s => newError .exception [s]
  | .builtin (.error kind) => newError kind []
  | _ => raise .typeError "exceptions must derive from BaseException"

/-- The cause that a value stands for: an error or none. -/
def toCause (value : Value) : Action (Option ErrorId) :=
  match value with
  | .null => pure none
  | .error id => pure (some id)
  | _ => raise .typeError "exception causes must derive from BaseException"

/-- The name under which a module is imported: the stem of a path, or the first part of a dotted
name. -/
def moduleName (target : String) : String :=
  let chars := target.toList
  if chars.contains '/' || target.endsWith ".stel" then (Path.ofString target).stem
  else String.ofList (chars.takeWhile (· ≠ '.'))

end Builtin

namespace Eval

/-- Uses the console. A refusal of the system is an error of the language; any other fault of a
stream is left as it is. -/
def onConsole {α : Type} (use : Console → Except StreamFault α × Console) : Eval α := do
  let (result, console) := use (← get).world.console
  modifyWorld fun world => { world with console := console }
  match result with
  | .ok result => return result
  | .error (.system reason) => raise .osError reason
  | .error fault => throw (.fault (.stream fault))

/-- Writes a text to the console. -/
def write (text : String) : Eval Unit :=
  onConsole (·.write text)

/-- Writes the texts of some values in one line. -/
def print (items : List Value) : Eval Value := do
  let texts ← perform (items.mapM Action.display)
  write (" ".intercalate texts ++ "\n")
  return .null

/-- Takes the next line from the console. -/
def readLine : Eval (List Char) :=
  onConsole (·.readLine)

/-- Reads a line without its line break, after writing a prompt. -/
def input (items : List Value) : Eval Value := do
  perform (Builtin.checkCount "input" items.length 0 1)
  if let prompt :: _ := items then
    let text ← perform (Action.display prompt)
    write text
  let line ← readLine
  if line.isEmpty then raise .eofError "EOF when reading a line"
  return .str (String.ofList (Text.trimRightBy (fun c => c = '\r' || c = '\n') line))

/-- Calls a built-in function. -/
def callBuiltin (function : BuiltinFunction) (items : List Value) : Eval Value :=
  match function with
  | .print => print items
  | .input => input items
  | _ => perform (Builtin.compute function items)

/-- Defines a function, whose parameters cannot have frozen names. -/
def makeFunction (name : String) (parameters : List String) (body : List Expr) :
    Eval FunctionId := do
  match parameters.find? fun parameter => (frozenValue? parameter).isSome with
  | some parameter => raise .typeError s!"cannot assign to {parameter}"
  | none => perform (Action.newFunction ⟨name, parameters, body⟩)

/-- Enters a class into the table of classes. -/
def addClass (definition : ClassDef) : Eval Unit := do
  let id ← perform (Action.newClass definition)
  modifyWorld fun world => { world with classes := world.classes.insert definition.name id }

end Eval

end Script
