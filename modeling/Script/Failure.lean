import Script.Heap

/-!
# Failures

An operation fails in one of two ways. It raises an error of the language, which a program can
catch; or the machine underneath the language reports a fault. Of the faults only too deep a
recursion can be caught by a program.
-/

namespace Script

/-- Why a stream cannot be read or written. -/
inductive StreamFault where
  /-- The system refuses, for a reason that it gives. -/
  | system (reason : String)
  /-- The stream has been closed. -/
  | closed
  /-- The input is not UTF-8. -/
  | undecodable
  /-- The encoding of the output has no code for a character. -/
  | unencodable
  deriving DecidableEq, Repr

/-- The kind of error that the fault of a stream amounts to. -/
def StreamFault.kind : StreamFault → ErrorKind
  | .system _ => .osError
  | .closed => .valueError
  | .undecodable => .unicodeDecodeError
  | .unencodable => .unicodeEncodeError

/-- What the machine underneath the language can report. -/
inductive Fault where
  /-- Calls or values are nested too deeply. -/
  | recursion
  /-- A value does not fit into memory. -/
  | memory
  /-- A number does not fit where the machine needs it. -/
  | overflow (message : String)
  /-- A complex zero is raised to a negative or complex power. -/
  | zeroPower
  /-- An integer has too many digits to be turned into text. -/
  | longInteger
  /-- A stream of the console has failed. -/
  | stream (fault : StreamFault)
  deriving DecidableEq, Repr

/-- The kind of error that a fault amounts to. -/
def Fault.kind : Fault → ErrorKind
  | .recursion => .recursionError
  | .memory => .memoryError
  | .overflow _ => .overflowError
  | .zeroPower => .zeroDivisionError
  | .longInteger => .valueError
  | .stream fault => fault.kind

/-- Why an operation has no result. -/
inductive Failure where
  | raised (kind : ErrorKind) (message : String)
  | fault (fault : Fault)
  deriving DecidableEq, Repr

/-- An operation that may change the heap. If it fails, the heap is as it was. -/
abbrev Action := StateT Heap (Except Failure)

namespace Action

variable {α : Type}

/-- Raises an error of the language. -/
def raise (kind : ErrorKind) (message : String) : Action α :=
  throw (.raised kind message)

/-- Stops with a fault of the machine. -/
def stop (fault : Fault) : Action α :=
  throw (.fault fault)

/-- The result of a computation that can only stop with a fault. -/
def ofFault (result : Except Fault α) : Action α :=
  match result with
  | .ok value => pure value
  | .error fault => stop fault

/-- The name of a value's type. -/
def typeName (value : Value) : Action String := do
  return (← get).typeName value

/-- Gives out a new mark. -/
def newMark : Action Nat := fun heap =>
  .ok (heap.nextMark, { heap with nextMark := heap.nextMark + 1 })

/-- A new list. -/
def newList (items : Array Value) : Action Value := fun heap =>
  .ok (.list heap.lists.next, { heap with lists := heap.lists.push items })

/-- A new dictionary. -/
def newDict (dict : Dict) : Action Value := fun heap =>
  .ok (.dict heap.dicts.next, { heap with dicts := heap.dicts.push dict })

/-- A new set. -/
def newSet (keys : List Value) : Action Value := fun heap =>
  .ok (.set heap.sets.next, { heap with sets := heap.sets.push keys })

/-- A new byte array. -/
def newBytearray (bytes : List UInt8) : Action Value := fun heap =>
  .ok (.bytearray heap.bytearrays.next, { heap with bytearrays := heap.bytearrays.push bytes })

/-- A new tuple. -/
def newTuple (items : List Value) : Action Value := do
  return .tuple (← newMark) items

/-- A new frozen set. -/
def newFrozenset (keys : List Value) : Action Value := do
  return .frozenset (← newMark) keys

/-- A double, marked if it is not a number. -/
def newFloat (x : Float) : Action Value := do
  if x.isNaN then return .float ⟨x, ← newMark⟩ else return .float ⟨x, 0⟩

/-- A complex number, marked if a part of it is not a number. -/
def newComplex (re im : Float) : Action Value := do
  if re.isNaN || im.isNaN then return .complex ⟨re, im, ← newMark⟩
  else return .complex ⟨re, im, 0⟩

/-- A new instance. -/
def newInstance (contents : Instance) : Action InstanceId := fun heap =>
  .ok (heap.instances.next, { heap with instances := heap.instances.push contents })

/-- A new error without notes and links. -/
def newError (kind : ErrorKind) (arguments : List String) : Action ErrorId := fun heap =>
  .ok (heap.errors.next,
    { heap with
      lists := heap.lists.push #[]
      errors := heap.errors.push ⟨kind, arguments, heap.lists.next, none, none, false⟩ })

/-- A new function. -/
def newFunction (definition : FunctionDef) : Action FunctionId := fun heap =>
  .ok (heap.functions.next, { heap with functions := heap.functions.push definition })

/-- A new class. -/
def newClass (definition : ClassDef) : Action ClassId := fun heap =>
  .ok (heap.classes.next, { heap with classes := heap.classes.push definition })

/-- Replaces the items of a list. -/
def setList (id : ListId) (change : Array Value → Array Value) : Action Unit :=
  modify fun heap => { heap with lists := heap.lists.modify id change }

/-- Changes a dictionary. -/
def setDict (id : DictId) (change : Dict → Dict) : Action Unit :=
  modify fun heap => { heap with dicts := heap.dicts.modify id change }

/-- Changes a set. -/
def setSet (id : SetId) (change : List Value → List Value) : Action Unit :=
  modify fun heap => { heap with sets := heap.sets.modify id change }

/-- Changes a byte array. -/
def setBytearray (id : ByteArrayId) (change : List UInt8 → List UInt8) : Action Unit :=
  modify fun heap => { heap with bytearrays := heap.bytearrays.modify id change }

/-- Changes an error. -/
def setError (id : ErrorId) (change : ErrorObject → ErrorObject) : Action Unit :=
  modify fun heap => { heap with errors := heap.errors.modify id change }

/-- Binds a field of an instance. -/
def setField (id : InstanceId) (name : String) (value : Value) : Action Unit :=
  modify fun heap =>
    { heap with
      instances := heap.instances.modify id fun contents =>
        { contents with fields := contents.fields.insert name value } }

/-- Refuses a value that cannot be a key. -/
def ensureHashable (value : Value) : Action Unit := do
  if !value.isHashable then
    let name ← typeName value
    raise .typeError s!"unhashable type: '{name}'"

end Action

end Script
