import Script.Operator.Apply
import Script.Text.CaseMap

/-!
# Methods and arguments

A built-in method takes a number of arguments between two bounds. The checks of arguments that
several methods and functions share stand here, with the items that a value is gone through.
-/

namespace Script

open Action

/-- A built-in method of some receiver. -/
structure Method where
  minimum : Nat
  maximum : Nat
  run : List Value → Action Value

namespace Method

/-- The number of arguments in words. -/
def expected (method : Method) : String :=
  if method.minimum = method.maximum then Number.decimalText method.minimum
  else Number.decimalText method.minimum ++ " to " ++ Number.decimalText method.maximum

/-- A method without arguments. -/
def nullary (run : Action Value) : Method :=
  ⟨0, 0, fun _ => run⟩

/-- A method with one argument. -/
def unary (run : Value → Action Value) : Method :=
  ⟨1, 1, fun items => run (items.headD .null)⟩

/-- A method whose only argument may be left out or null. -/
def optional (run : Value → Action Value) : Method :=
  ⟨0, 1, fun items => run (items.headD .null)⟩

end Method

namespace Builtin

/-- An argument that has to be a text. -/
def requireText (owner : String) : Value → Action String
  | .str s => return s
  | value => do
    let name ← typeName value
    raise .typeError s!"{owner} argument must be str, not {name}"

/-- An argument that has to be an integer. -/
def requireInt (owner : String) : Value → Action Int
  | .int n => return n
  | value => do
    let name ← typeName value
    raise .typeError s!"{owner} argument must be int, not {name}"

/-- A number that has to fit where the machine needs a size or place. -/
def requireSize (n : Int) : Action Int :=
  if n < -Operand.maxSize - 1 || Operand.maxSize < n then
    stop (.overflow "Python int too large to convert to C ssize_t")
  else pure n

/-- A value that has to be a byte. -/
def requireByte (value : Value) : Action UInt8 := do
  let n ← requireInt "byte" value
  if n < 0 || 255 < n then raise .valueError "byte must be in range(0, 256)"
  return UInt8.ofNat n.toNat

/-- A number of arguments that has to lie between two bounds. -/
def checkCount (name : String) (count low high : Nat) : Action Unit := do
  if count < low || high < count then
    raise .typeError s!"{name}() takes {low} to {high} arguments ({count} given)"

/-- A name that has to be one of UTF-8. -/
def checkEncoding (name : String) : Action Unit := do
  let plain := String.ofList
    (Text.replace ['_'] ['-'] none (Text.lowerText name.toList))
  if plain != "utf-8" && plain != "utf8" then
    raise .exception s!"unsupported encoding: {name}"

/-- The members of a range as values. -/
def rangeItems (range : Range) : Action (List Value) := do
  let length ← ofFault (Heap.rangeLength range)
  if Arithmetic.maxUnits < length then stop .memory
  return range.toList.map .int

/-- A byte as a value. -/
def byteValue (byte : UInt8) : Value :=
  .int byte.toNat

/-- The items of a value as they are at this moment. -/
def itemsOf (value : Value) : Action (List Value) := do
  let heap ← get
  match value with
  | .list id => return (heap.list id).toList
  | .tuple _ items => return items
  | .range range => rangeItems range
  | .bytes bytes => return bytes.map byteValue
  | .bytearray id => return (heap.bytearray id).map byteValue
  | .set id => return heap.set id
  | .frozenset _ keys => return keys
  | .str s => return s.toList.map fun c => .str (String.singleton c)
  | .dict id => return (heap.dict id).keys
  | _ =>
    let name ← typeName value
    raise .typeError s!"'{name}' object is not iterable"

/-- The items of a value, all of which have to be possible keys. -/
def keysOf (value : Value) : Action (List Value) := do
  let items ← itemsOf value
  items.forM ensureHashable
  return items

end Builtin

end Script
