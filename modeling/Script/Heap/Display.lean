import Script.Failure
import Script.Number.FloatText

/-!
# Display

The text of a value as a program prints it. Lists, tuples, dictionaries, sets and structs show
their parts, so a value that contains itself this way has no text; instances, methods and errors
do not show their parts. Sets are shown in the order of the texts of their members.
-/

namespace Script

/-- The frames of its own that the machine takes at most to show or compare one level of a value. -/
def framesPerValue : Nat := 4

namespace Heap

/-- How deeply values may be nested to be shown or compared. -/
def nestingLimit (heap : Heap) : Nat :=
  framesFor heap.maxDepth / framesPerValue

/-- Whatever the limit on the depth of calls is, there is as much room as without calls. -/
theorem rest_le_nesting_limit (heap : Heap) : hostFrames / framesPerValue ≤ heap.nestingLimit :=
  Nat.div_le_div_right (Nat.le_add_left hostFrames (heap.maxDepth * framesPerCall))

theorem nesting_limit_pos (heap : Heap) : 0 < heap.nestingLimit :=
  Nat.lt_of_lt_of_le (by decide) heap.rest_le_nesting_limit

/-- The text of an integer. -/
def intText (n : Int) : Except Fault String :=
  match Number.text? n with
  | some text => .ok text
  | none => .error .longInteger

/-- The text of a double: an integer is shown without a point. -/
def floatDisplay (x : Float) : String :=
  match Number.isInteger x, Number.truncate? x with
  | true, some n => Number.decimalText n
  | _, _ => Number.floatText Number.plainStyle x

/-- Texts with commas between them. -/
def commaSeparated (texts : List String) : String :=
  ", ".intercalate texts

/-- The numbers of some bytes, with commas between them. -/
def byteNumbers (bytes : List UInt8) : String :=
  commaSeparated (bytes.map fun byte => Number.decimalText byte.toNat)

/-- Texts in code point order. -/
def sortTexts (texts : List String) : List String :=
  texts.mergeSort fun a b => decide (a ≤ b)

/-- The text of a range; a step of one is left out. -/
def rangeText (range : Range) : Except Fault String := do
  let start ← intText range.start
  let stop ← intText range.stop
  if range.step = 1 then return s!"range({start}, {stop})"
  else return s!"range({start}, {stop}, {← intText range.step})"

/-- The text of a value that may be nested to a given depth. -/
def displayWithin (heap : Heap) : Nat → Value → Except Fault String
  | 0, _ => .error .recursion
  | depth + 1, value =>
    match value with
    | .null => .ok "None"
    | .notImplemented => .ok "NotImplemented"
    | .ellipsis => .ok "Ellipsis"
    | .bool b => .ok (if b then "true" else "false")
    | .int n => intText n
    | .float x => .ok (floatDisplay x.value)
    | .complex z => .ok (Number.complexText z.re z.im)
    | .str s => .ok s
    | .bytes bytes => .ok ("b[" ++ byteNumbers bytes ++ "]")
    | .bytearray id => .ok ("bytearray([" ++ byteNumbers (heap.bytearray id) ++ "])")
    | .list id => do
      let texts ← (heap.list id).toList.mapM (displayWithin heap depth)
      return "[" ++ commaSeparated texts ++ "]"
    | .tuple _ items => do
      match ← items.mapM (displayWithin heap depth) with
      | [text] => return "(" ++ text ++ ",)"
      | texts => return "(" ++ commaSeparated texts ++ ")"
    | .dict id => do
      let texts ← (heap.dict id).entries.mapM fun entry => do
        let key ← displayWithin heap depth entry.1
        let value ← displayWithin heap depth entry.2
        return key ++ ": " ++ value
      return "\x7b" ++ commaSeparated texts ++ "\x7d"
    | .frozenset _ keys => do
      if keys.isEmpty then return "frozenset()"
      let texts ← keys.mapM (displayWithin heap depth)
      return "frozenset(\x7b" ++ commaSeparated (sortTexts texts) ++ "\x7d)"
    | .set id => do
      let keys := heap.set id
      if keys.isEmpty then return "set()"
      let texts ← keys.mapM (displayWithin heap depth)
      return "\x7b" ++ commaSeparated (sortTexts texts) ++ "\x7d"
    | .range range => rangeText range
    | .error id => .ok (heap.error id).format
    | .classObject id =>
      let definition := heap.classDef id
      .ok s!"<{definition.kind.name} {definition.name}>"
    | .object id => do
      let definition := heap.classOf id
      if definition.kind = .struct then
        let texts ← (heap.instanceOf id).fields.entries.mapM fun field => do
          return field.1 ++ ": " ++ (← displayWithin heap depth field.2)
        return definition.name ++ " \x7b " ++ commaSeparated texts ++ " \x7d"
      else return s!"<{definition.name} instance>"
    | .enumVariant enumName variant => .ok s!"{enumName}::{variant}"
    | .function id => .ok s!"<function {(heap.function id).name}>"
    | .boundMethod _ receiver function =>
      .ok s!"<bound method {(heap.classOf receiver).name}.{(heap.function function).name}>"
    | .builtinMethod _ object method =>
      .ok s!"<built-in method {method} of {heap.typeName object}>"
    | .builtin function => .ok s!"<built-in function {function.name}>"

/-- The text of a value. -/
def display (heap : Heap) (value : Value) : Except Fault String :=
  heap.displayWithin heap.nestingLimit value

/-- The length of a range, if it can be counted. -/
def rangeLength (range : Range) : Except Fault Nat :=
  if range.length ≤ Range.maxLength then .ok range.length
  else .error (.overflow "Python int too large to convert to C ssize_t")

/-- Whether a value counts as true: it is not null, not false, not zero, not empty, and not a
double that is not a number. -/
def isTruthy (heap : Heap) : Value → Except Fault Bool
  | .null => .ok false
  | .bool b => .ok b
  | .int n => .ok (n != 0)
  | .float x => .ok (x.value != 0 && !x.value.isNaN)
  | .complex z => .ok (z.re != 0 || z.im != 0)
  | .str s => .ok (!s.isEmpty)
  | .bytes bytes => .ok (!bytes.isEmpty)
  | .bytearray id => .ok (!(heap.bytearray id).isEmpty)
  | .list id => .ok (!(heap.list id).isEmpty)
  | .tuple _ items => .ok (!items.isEmpty)
  | .dict id => .ok (!(heap.dict id).entries.isEmpty)
  | .set id => .ok (!(heap.set id).isEmpty)
  | .frozenset _ keys => .ok (!keys.isEmpty)
  | .range range => return (← rangeLength range) != 0
  | _ => .ok true

end Heap

namespace Action

/-- The text of a value. -/
def display (value : Value) : Action String := do
  ofFault ((← get).display value)

/-- Whether a value counts as true. -/
def isTruthy (value : Value) : Action Bool := do
  ofFault ((← get).isTruthy value)

end Action

end Script
