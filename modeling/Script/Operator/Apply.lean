import Script.Operator
import Script.Operator.Arithmetic
import Script.Text.Quoted
import Script.Text.Search

/-!
# Applying operators

What each operator does to values of each type, and how it refuses the others.
-/

namespace Script

open Action
open Heap (Comparison)

-- Powers are those of the core library, whatever other instances are in scope.
attribute [local instance (high)] instPowNat

namespace Operand

/-- The failure of an operator on operands it is not made for. -/
def unsupported {α : Type} (symbol : String) (left right : Value) : Action α := do
  let leftType ← typeName left
  let rightType ← typeName right
  raise .typeError s!"unsupported operand type(s) for {symbol}: '{leftType}' and '{rightType}'"

/-- The largest number that the machine uses as a size or place. -/
def maxSize : Int := 2 ^ (63 : Nat) - 1

/-- A list repeated a number of times, if it fits. Too long a result is reported as the type
demands. -/
def repeatItems {α : Type} (items : List α) (times : Nat) (tooLong : Fault) :
    Action (List α) :=
  let length := items.length * times
  if items.isEmpty then pure []
  else if maxSize.toNat < length then stop tooLong
  else if Arithmetic.maxUnits < length then stop .memory
  else pure (List.replicate times items).flatten

/-- A text, list, tuple, bytes value or byte array repeated. -/
def repeated (sequence : Value) (times : Int) : Action Value := do
  if times < 0 then raise .valueError "negative repetition count"
  if maxSize < times then stop (.overflow "cannot fit 'int' into an index-sized integer")
  let times := times.toNat
  match sequence with
  | .str s =>
    return .str (String.ofList
      (← repeatItems s.toList times (.overflow "repeated string is too long")))
  | .bytes bytes =>
    return .bytes (← repeatItems bytes times (.overflow "repeated bytes are too long"))
  | .bytearray id =>
    newBytearray (← repeatItems ((← get).bytearray id) times .memory)
  | .list id => newList (← repeatItems ((← get).list id).toList times .memory).toArray
  | .tuple mark items =>
    if times = 1 then return .tuple mark items
    newTuple (← repeatItems items times .memory)
  | other => unsupported "*" other (.int times)

/-- The value can be repeated. -/
def isSequence : Value → Bool
  | .str _ | .list _ | .tuple _ _ | .bytes _ | .bytearray _ => true
  | _ => false

/-- Sums of numbers, and texts, lists, tuples and bytes put together. An error next to a text
counts as its message. -/
def add (left right : Value) : Action Value := do
  match left.arithmetic?, right.arithmetic? with
  | some a, some b => Arithmetic.add a b
  | _, _ =>
    let heap ← get
    match left, right with
    | .str a, .str b => return .str (a ++ b)
    | .str a, .error b => return .str (a ++ (heap.error b).message)
    | .error a, .str b => return .str ((heap.error a).message ++ b)
    | .list a, .list b => newList (heap.list a ++ heap.list b)
    | .tuple markA a, .tuple markB b =>
      if a.isEmpty then return .tuple markB b
      else if b.isEmpty then return .tuple markA a
      else newTuple (a ++ b)
    | .bytes a, other =>
      match heap.bytes? other with
      | some b => return .bytes (a ++ b)
      | none => unsupported "+" left right
    | .bytearray a, other =>
      match heap.bytes? other with
      | some b => newBytearray (heap.bytearray a ++ b)
      | none => unsupported "+" left right
    | _, _ => unsupported "+" left right

/-- A set or frozen set, as the first operand was. -/
def likeSet (model : Value) (keys : List Value) : Action Value :=
  match model with
  | .set _ => newSet keys
  | _ => newFrozenset keys

/-- An operator on two sets. -/
def onSets (symbol : String) (combine : List Value → List Value → List Value)
    (left right : Value) : Action Value := do
  let heap ← get
  match heap.members? left, heap.members? right with
  | some keys, some others => likeSet left (combine keys others)
  | _, _ => unsupported symbol left right

/-- Differences of numbers and of sets. -/
def subtract (left right : Value) : Action Value :=
  match left.arithmetic?, right.arithmetic? with
  | some a, some b => Arithmetic.subtract a b
  | _, _ => onSets "-" Keys.diff left right

/-- Products of numbers, and sequences repeated. -/
def multiply (left right : Value) : Action Value :=
  match left.arithmetic?, right.arithmetic? with
  | some a, some b => Arithmetic.multiply a b
  | _, _ =>
    match left, right with
    | .int times, sequence =>
      if isSequence sequence then repeated sequence times else unsupported "*" left right
    | sequence, .int times =>
      if isSequence sequence then repeated sequence times else unsupported "*" left right
    | _, _ => unsupported "*" left right

/-- An operator on numbers of all sorts. -/
def onNumbers (symbol : String)
    (operation : Number.Numeric → Number.Numeric → Action Value) (left right : Value) :
    Action Value :=
  match left.arithmetic?, right.arithmetic? with
  | some a, some b => operation a b
  | _, _ => unsupported symbol left right

/-- An operator on integers and doubles. -/
def onReals (symbol : String)
    (operation : Number.Numeric → Number.Numeric → Action Value) (left right : Value) :
    Action Value :=
  if Heap.isReal left && Heap.isReal right then onNumbers symbol operation left right
  else unsupported symbol left right

/-- The members that two sets share. Of equal members, those of the smaller set are kept, and
those of the second if the sets have the same size. -/
def sharedKeys (keys others : List Value) : List Value :=
  if keys.length < others.length then Keys.inter keys others else Keys.inter others keys

/-- An operator on the bits of integers or on sets. -/
def bitwise (symbol : String) (onInts : Int → Int → Int)
    (combine : List Value → List Value → List Value) (left right : Value) : Action Value :=
  match left, right with
  | .int a, .int b => return .int (onInts a b)
  | _, _ => onSets symbol combine left right

/-- A shift of the bits of an integer. -/
def shift (symbol : String) (move : Int → Nat → Action Value) (left right : Value) :
    Action Value :=
  match left, right with
  | .int n, .int places => do
    if places < 0 then raise .valueError "negative shift count"
    move n places.toNat
  | _, _ => unsupported symbol left right

/-- An order of two values. -/
def ordering (comparison : Comparison) (left right : Value) : Action Value := do
  match (← get).ordered comparison left right with
  | .ok holds => return .bool holds
  | .error failure => throw failure

/-- Some item is the same as the value or equal to it. -/
def anyEqual (value : Value) : List Value → Action Bool
  | [] => return false
  | item :: items => do
    if ← sameOrEqual item value then return true else anyEqual value items

/-- The integer that a number equals, if there is one. -/
def integerValue? (value : Value) : Option Int :=
  let ofFloat (x : Float) : Option Int :=
    if Number.isInteger x then Number.truncate? x else none
  match value.numeric? with
  | some (.int n) => some n
  | some (.float x) => ofFloat x
  | some (.complex re im) => if im == 0 then ofFloat re else none
  | none => none

/-- A byte array or bytes value holds a byte or a row of bytes. -/
def bytesContain (bytes : List UInt8) (item : Value) : Action Bool := do
  match item with
  | .int n =>
    if n < 0 || 255 < n then raise .valueError "byte must be in range(0, 256)"
    return bytes.contains (UInt8.ofNat n.toNat)
  | _ =>
    match (← get).bytes? item with
    | some row =>
      return Text.occursIn (row.map fun byte => Char.ofNat byte.toNat)
        (bytes.map fun byte => Char.ofNat byte.toNat)
    | none => raise .typeError "a bytes-like object is required"

/-- Whether a container holds an item. -/
def contains (container item : Value) : Action Bool := do
  let heap ← get
  match container with
  | .str text =>
    match item with
    | .str sub => return Text.occursIn sub.toList text.toList
    | _ => raise .typeError "'in <string>' requires string as left operand"
  | .list id => anyEqual item (heap.list id).toList
  | .tuple _ items => anyEqual item items
  | .dict id =>
    ensureHashable item
    return (heap.dict id).contains item
  | .set id =>
    ensureHashable item
    return Keys.mem item (heap.set id)
  | .frozenset _ keys =>
    ensureHashable item
    return Keys.mem item keys
  | .bytes bytes => bytesContain bytes item
  | .bytearray id => bytesContain (heap.bytearray id) item
  | .range range => return (integerValue? item).any range.contains
  | _ =>
    let name ← typeName container
    raise .typeError s!"argument of type '{name}' is not iterable"

/-- Whether two values are the same. -/
def isSame (left right : Value) : Action Bool := do
  ofFault ((← get).same left right)

end Operand

namespace BinaryOperator

open Operand

/-- What an operator does to two values. `and` and `or` look at the second value only if the
first does not decide. -/
def operation : BinaryOperator → Value → Value → Action Value
  | .or, left, right => do
    if ← isTruthy left then return .bool true else return .bool (← isTruthy right)
  | .and, left, right => do
    if ← isTruthy left then return .bool (← isTruthy right) else return .bool false
  | .equal, left, right => do return .bool (← Action.equal left right)
  | .notEqual, left, right => do return .bool (!(← Action.equal left right))
  | .less, left, right => ordering .less left right
  | .greater, left, right => ordering .greater left right
  | .lessEqual, left, right => ordering .lessEqual left right
  | .greaterEqual, left, right => ordering .greaterEqual left right
  | .is, left, right => do return .bool (← isSame left right)
  | .isNot, left, right => do return .bool (!(← isSame left right))
  | .within, left, right => do return .bool (← contains right left)
  | .notWithin, left, right => do return .bool (!(← contains right left))
  | .bitOr, left, right => bitwise "|" Number.bitOr Keys.insertAll left right
  | .bitXor, left, right => bitwise "^" Number.bitXor Keys.symmDiff left right
  | .bitAnd, left, right => bitwise "&" Number.bitAnd sharedKeys left right
  | .shiftLeft, left, right => shift "<<" Arithmetic.shiftLeft left right
  | .shiftRight, left, right =>
    shift ">>" (fun n places => return .int (Number.shiftRight n places)) left right
  | .add, left, right => Operand.add left right
  | .subtract, left, right => Operand.subtract left right
  | .multiply, left, right => Operand.multiply left right
  | .divide, left, right => onNumbers "/" Arithmetic.divide left right
  | .remainder, left, right => onReals "%" Arithmetic.remainder left right
  | .floorDivide, left, right => onReals "//" Arithmetic.floorDivide left right
  | .power, left, right => onNumbers "**" Arithmetic.power left right

/-- The result of an operator; a number that does not fit is an error of the language. -/
def apply (operator : BinaryOperator) (left right : Value) : Action Value := fun heap =>
  match operator.operation left right heap with
  | .error (.fault (.overflow message)) => .error (.raised .overflowError message)
  | result => result

/-- The result of an operator that is given by how it is written. -/
def applySymbol (symbol : String) (left right : Value) : Action Value :=
  match ofSymbol? symbol with
  | some operator => operator.apply left right
  | none => raise .syntaxError s!"Unknown binary operator {Text.quoted symbol}"

end BinaryOperator

namespace UnaryOperator

/-- The result of an operator. -/
def apply (operator : UnaryOperator) (value : Value) : Action Value := do
  match operator with
  | .not => return .bool (!(← isTruthy value))
  | .negate =>
    match value with
    | .int n => return .int (-n)
    | .float x => newFloat (-x.value)
    | .complex z => newComplex (-z.re) (-z.im)
    | _ =>
      let name ← typeName value
      raise .typeError s!"bad operand type for unary -: '{name}'"
  | .invert =>
    match value with
    | .int n => return .int (Number.complement n)
    | _ =>
      let name ← typeName value
      raise .typeError s!"bad operand type for unary ~: '{name}'"

/-- The result of an operator that is given by how it is shown. -/
def applySymbol (symbol : String) (value : Value) : Action Value :=
  match ofSymbol? symbol with
  | some operator => operator.apply value
  | none => raise .syntaxError s!"Unknown unary operator {Text.quoted symbol}"

end UnaryOperator

end Script
