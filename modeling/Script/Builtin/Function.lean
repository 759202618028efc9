import Script.Builtin.Method
import Script.Number.Reading
import Script.Text.Blank
import Script.Text.Utf8

/-!
# Built-in functions

The functions that only compute: those that make values of a given type out of others.
-/

namespace Script.Builtin

open Action

/-- The range that one to three integers describe. -/
def makeRange (items : List Value) : Action Value := do
  checkCount "range" items.length 1 3
  let bounds ← items.mapM (requireInt "range()")
  let (start, stop, step) :=
    match bounds with
    | [stop] => (0, stop, 1)
    | [start, stop] => (start, stop, 1)
    | [start, stop, step] => (start, stop, step)
    | _ => (0, 0, 1)
  if h : step = 0 then raise .valueError "range() arg 3 must not be zero"
  else return .range ⟨start, stop, step, h⟩

/-- A collection of the items of one value, or an empty one. -/
def makeCollection (name : String) (gather : Value → Action (List Value))
    (build : List Value → Action Value) (items : List Value) : Action Value := do
  checkCount name items.length 0 1
  match items with
  | [] => build []
  | source :: _ => build (← gather source)

/-- The two items of a pair. -/
def pair? (heap : Heap) : Value → Option (Value × Value)
  | .list id =>
    match (heap.list id).toList with
    | [key, value] => some (key, value)
    | _ => none
  | .tuple _ [key, value] => some (key, value)
  | _ => none

/-- The dictionary that pairs make up, after the entries already there. -/
def dictOfPairs (dict : Dict) : List Value → Action Dict
  | [] => return dict
  | item :: items => do
    match pair? (← get) item with
    | none => raise .typeError "dict() sequence elements must be pairs"
    | some (key, value) =>
      ensureHashable key
      dictOfPairs (dict.insert key value) items

/-- A dictionary: empty, a copy of another, or made of pairs. -/
def makeDict (items : List Value) : Action Value := do
  checkCount "dict" items.length 0 1
  match items with
  | [] => newDict Dict.empty
  | .dict id :: _ => newDict ((← get).dict id)
  | source :: _ => newDict (← dictOfPairs Dict.empty (← itemsOf source))

/-- The bytes that a text, a count or a row of numbers stands for. -/
def byteValues (name : String) (items : List Value) : Action (List UInt8) := do
  checkCount name items.length 0 2
  match items with
  | [] => return []
  | .str s :: rest =>
    if let encoding :: _ := rest then
      let encoding ← requireText s!"{name}()" encoding
      checkEncoding encoding
    return Text.Utf8.encode s.toList
  | .int count :: _ =>
    if count < 0 then raise .valueError "negative count"
    if Operand.maxSize < count then
      stop (.overflow "cannot fit 'int' into an index-sized integer")
    if (Arithmetic.maxUnits : Int) < count then stop .memory
    return List.replicate count.toNat 0
  | source :: _ => (← itemsOf source).mapM requireByte

/-- The integer that a text writes in a base. -/
def intOfText (s : String) (base : Int) : Action Value := do
  match Number.readInt? base (Text.trimBy Text.isBlank s.toList) with
  | some n => return .int n
  | none =>
    let baseText ← ofFault (Heap.intText base)
    raise .valueError s!"invalid literal for int() with base {baseText}: '{s}'"

/-- An integer: zero, read from a text, or the integer part of a number. -/
def makeInt (items : List Value) : Action Value := do
  checkCount "int" items.length 0 2
  match items with
  | [] => return .int 0
  | [.str s, base] => intOfText s (← requireInt "int()" base)
  | [_, _] => raise .typeError "int() can't convert non-string with explicit base"
  | value :: _ =>
    match value with
    | .str s => intOfText s 10
    | .float x =>
      match Number.truncate? x.value with
      | some n => return .int n
      | none =>
        if x.value.isNaN then raise .valueError "cannot convert float NaN to integer"
        else raise .overflowError "cannot convert float infinity to integer"
    | .int n => return .int n
    | .bool b => return .int (if b then 1 else 0)
    | _ =>
      let name ← typeName value
      raise .typeError s!"int() argument must be a string or a number, not '{name}'"

/-- An integer as a double. -/
def floatFromInt (n : Int) : Action Value :=
  match Number.floatOfInt? n with
  | some x => newFloat x
  | none => raise .overflowError "int too large to convert to float"

/-- A double: zero, read from a text, or nearest to a number. -/
def makeFloat (items : List Value) : Action Value := do
  checkCount "float" items.length 0 1
  match items with
  | [] => newFloat 0.0
  | value :: _ =>
    match value with
    | .str s =>
      match Number.readFloat? (Text.trimBy Text.isBlank s.toList) with
      | some x => newFloat x
      | none => raise .valueError s!"could not convert string to float: '{s}'"
    | .float x => return .float x
    | .int n => floatFromInt n
    | .bool b => newFloat (if b then 1.0 else 0.0)
    | _ =>
      let name ← typeName value
      raise .typeError s!"float() argument must be a string or a number, not '{name}'"

/-- The number of an argument of `complex`. -/
def complexPart (value : Value) : Action Number.Numeric := do
  match value.arithmetic? with
  | some number => return number
  | none =>
    let name ← typeName value
    raise .typeError s!"complex() argument must be a number, not '{name}'"

/-- A complex number: zero, a number, or the first number plus the second times the imaginary
unit. -/
def makeComplex (items : List Value) : Action Value := do
  checkCount "complex" items.length 0 2
  let parts ← items.mapM complexPart
  match items, parts with
  | [.complex z], _ => return .complex z
  | _, [a] =>
    let z ← Arithmetic.toComplex a
    newComplex z.re z.im
  | _, [a, b] =>
    let re ← Arithmetic.toComplex a
    let im ← Arithmetic.toComplex b
    let real := match b with
      | .complex _ _ => re.re - im.im
      | _ => re.re
    let imaginary := match a with
      | .complex _ _ => im.re + re.im
      | _ => im.re
    newComplex real imaginary
  | _, _ => newComplex 0.0 0.0

/-- A built-in function that only computes. The functions for input and output give nothing
here. -/
def compute (function : BuiltinFunction) (items : List Value) : Action Value := do
  match function with
  | .print | .input => return .null
  | .range => makeRange items
  | .list => makeCollection "list" itemsOf (fun items => newList items.toArray) items
  | .tuple => makeCollection "tuple" itemsOf newTuple items
  | .set => makeCollection "set" keysOf (fun items => newSet (Keys.ofList items)) items
  | .frozenset =>
    makeCollection "frozenset" keysOf (fun items => newFrozenset (Keys.ofList items)) items
  | .dict => makeDict items
  | .bytes => return .bytes (← byteValues "bytes" items)
  | .bytearray => newBytearray (← byteValues "bytearray" items)
  | .str =>
    checkCount "str" items.length 0 1
    match items with
    | [] => return .str ""
    | value :: _ => return .str (← display value)
  | .int => makeInt items
  | .float => makeFloat items
  | .bool =>
    checkCount "bool" items.length 0 1
    match items with
    | [] => return .bool false
    | value :: _ => return .bool (← isTruthy value)
  | .complex => makeComplex items
  | .error kind => return .error (← newError kind (← items.mapM display))

end Script.Builtin
