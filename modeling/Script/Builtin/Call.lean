import Script.Builtin.BytesMethod
import Script.Builtin.KeyMethod
import Script.Builtin.ListMethod
import Script.Builtin.TextMethod

/-!
# Calling methods of built-in values

The method is looked up by the type of the receiver, then the number of arguments is checked.
-/

namespace Script.Builtin

open Action

/-- The method of a value under a name. -/
def method? (heap : Heap) (receiver : Value) (name : String) : Option Method :=
  match receiver with
  | .str s => textMethod? s name
  | .list id => listMethod? id name
  | .tuple _ items => tupleMethod? items name
  | .dict id => dictMethod? id name
  | .set id => setMethod? id (heap.set id) name
  | .frozenset mark keys => frozensetMethod? mark keys name
  | .bytearray id => bytearrayMethod? id (heap.bytearray id) name
  | .bytes bytes => bytesMethod? bytes name
  | .error id => errorMethod? id name
  | _ => none

/-- Calls the method of a value under a name. -/
def callMethod (receiver : Value) (name : String) (items : List Value) : Action Value := do
  let heap ← get
  match method? heap receiver name with
  | none =>
    let receiverType ← typeName receiver
    raise .attributeError s!"'{receiverType}' object has no attribute '{name}'"
  | some method =>
    if items.length < method.minimum || method.maximum < items.length then
      let receiverType ← typeName receiver
      raise .typeError
        s!"{receiverType}.{name}() takes {method.expected} arguments ({items.length} given)"
    method.run items

/-- An attribute of a value that is no instance and no class: a part of an error, or else a
method that is looked up when it is called. -/
def getAttribute (object : Value) (name : String) : Action Value := do
  let found ←
    match object with
    | .error id => errorAttribute? id name
    | _ => pure none
  match found with
  | some value => return value
  | none => return .builtinMethod (← newMark) object name

end Script.Builtin
