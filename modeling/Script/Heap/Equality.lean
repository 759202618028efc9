import Script.Heap.Display

/-!
# Equality and order

Values with parts are equal if their parts are, where a part that is the same object on both
sides counts as equal without further comparison. Texts, bytes, lists and tuples are ordered by
the first place at which they differ, and sets by inclusion.
-/

namespace Script

namespace Value

/-- The values are the same mutable object, or the same double that is not a number. -/
def isIdentical : Value → Value → Bool
  | .list a, .list b | .dict a, .dict b | .set a, .set b | .bytearray a, .bytearray b
  | .object a, .object b | .error a, .error b => a == b
  | a, b => sameNaN a b

/-- The value is a mutable object. -/
def isMutable : Value → Bool
  | .list _ | .dict _ | .set _ | .bytearray _ | .object _ | .error _ => true
  | _ => false

end Value

namespace Heap

/-- Two lists of the same length agree at every place; otherwise they differ at the first place
where they do not agree, or at the end of the shorter. -/
def allAgree (agree : Value → Value → Except Fault Bool) :
    List Value → List Value → Except Fault Bool
  | x :: xs, y :: ys => do
    if ← agree x y then allAgree agree xs ys else return false
  | xs, ys => .ok (xs.isEmpty && ys.isEmpty)

/-- Every entry of the first dictionary has an equal one in the second. -/
def entriesAgree (agree : Value → Value → Except Fault Bool) (other : Dict) :
    List (Value × Value) → Except Fault Bool
  | [] => .ok true
  | (key, value) :: rest =>
    match other.get? key with
    | none => .ok false
    | some value' => do
      if ← agree value' value then entriesAgree agree other rest else return false

/-- The members of a set or frozen set. -/
def members? (heap : Heap) : Value → Option (List Value)
  | .set id => some (heap.set id)
  | .frozenset _ keys => some keys
  | _ => none

/-- The bytes of a bytes value or byte array. -/
def bytes? (heap : Heap) : Value → Option (List UInt8)
  | .bytes bytes => some bytes
  | .bytearray id => some (heap.bytearray id)
  | _ => none

/-- Whether two values, nested at most to a given depth, are equal. -/
def equalWithin (heap : Heap) : Nat → Value → Value → Except Fault Bool
  | 0, _, _ => .error .recursion
  | depth + 1, a, b =>
    let agree (x y : Value) : Except Fault Bool :=
      if x.isIdentical y then .ok true else equalWithin heap depth x y
    match a, b with
    | .list x, .list y =>
      if (heap.list x).size ≠ (heap.list y).size then .ok false
      else allAgree agree (heap.list x).toList (heap.list y).toList
    | .tuple _ xs, .tuple _ ys => allAgree agree xs ys
    | .dict x, .dict y =>
      if (heap.dict x).size ≠ (heap.dict y).size then .ok false
      else entriesAgree agree (heap.dict y) (heap.dict x).entries
    | .error x, .error y =>
      let left := heap.error x
      let right := heap.error y
      .ok (left.kind == right.kind && left.arguments == right.arguments)
    | a, b =>
      match heap.members? a, heap.members? b with
      | some keys, some others => .ok (Keys.sameSet keys others)
      | _, _ =>
        match heap.bytes? a, heap.bytes? b with
        | some left, some right => .ok (left == right)
        | _, _ => .ok (a.atomEqual b)

/-- Whether two values are equal. -/
def equal (heap : Heap) (a b : Value) : Except Fault Bool :=
  heap.equalWithin heap.nestingLimit a b

/-- Whether two values are the same object or equal. -/
def sameOrEqual (heap : Heap) (a b : Value) : Except Fault Bool :=
  if a.isIdentical b then .ok true else heap.equal a b

/-- Two immutable values have the same type. Objects are left out. -/
def sameSort : Value → Value → Bool
  | .null, .null | .notImplemented, .notImplemented | .ellipsis, .ellipsis => true
  | .bool _, .bool _ | .int _, .int _ | .float _, .float _ | .complex _, .complex _ => true
  | .str _, .str _ | .bytes _, .bytes _ | .tuple _ _, .tuple _ _ => true
  | .frozenset _ _, .frozenset _ _ | .range _, .range _ => true
  | .enumVariant _ _, .enumVariant _ _ => true
  | .function _, .function _ | .classObject _, .classObject _ | .builtin _, .builtin _ => true
  | .boundMethod _ _ _, .boundMethod _ _ _ | .builtinMethod _ _ _, .builtinMethod _ _ _ => true
  | _, _ => false

/-- Whether two values are the same: the same object if one is mutable, and otherwise equal
values of one type. -/
def same (heap : Heap) (a b : Value) : Except Fault Bool :=
  if a.isMutable || b.isMutable then
    .ok (a.isMutable && b.isMutable && a.isIdentical b)
  else if sameSort a b then heap.equal a b
  else .ok false

/-- The four ways to ask for an order. -/
inductive Comparison where
  | less
  | greater
  | lessEqual
  | greaterEqual
  deriving DecidableEq, Repr

/-- How a comparison is written. -/
def Comparison.symbol : Comparison → String
  | .less => "<"
  | .greater => ">"
  | .lessEqual => "<="
  | .greaterEqual => ">="

/-- Whether an order is as asked for. -/
def Comparison.holds : Comparison → Ordering → Bool
  | .less, order => order == .lt
  | .greater, order => order == .gt
  | .lessEqual, order => order != .gt
  | .greaterEqual, order => order != .lt

/-- Whether one set is included in another as asked for. -/
def Comparison.holdsOfSets : Comparison → List Value → List Value → Bool
  | .less, keys, others => decide (keys.length < others.length) && Keys.subset keys others
  | .greater, keys, others => decide (others.length < keys.length) && Keys.subset others keys
  | .lessEqual, keys, others => Keys.subset keys others
  | .greaterEqual, keys, others => Keys.subset others keys

/-- The name by which a part that cannot be ordered is called in a message. -/
def partTypeName (heap : Heap) : Value → String
  | .function _ => "Function"
  | .boundMethod _ _ _ => "BoundMethod"
  | .builtin _ => "BuiltinFunction"
  | .builtinMethod _ _ _ => "BuiltinMethod"
  | .classObject _ => "Class"
  | .object _ => "Instance"
  | .enumVariant _ _ => "EnumVariant"
  | .error _ => "ExceptionValue"
  | value => heap.typeName value

/-- The message for values that are not ordered. -/
def notOrdered (comparison : Comparison) (left right : String) : Failure :=
  .raised .typeError
    s!"'{comparison.symbol}' not supported between instances of '{left}' and '{right}'"

/-- A fault as a failure. -/
def liftFault {α : Type} : Except Fault α → Except Failure α
  | .ok value => .ok value
  | .error fault => .error (.fault fault)

/-- The first place at which two lists do not agree, or how their lengths compare. -/
def firstDifference (agree : Value → Value → Except Fault Bool) :
    List Value → List Value → Except Fault (Sum (Value × Value) Ordering)
  | x :: xs, y :: ys => do
    if ← agree x y then firstDifference agree xs ys else return .inl (x, y)
  | xs, ys => .ok (.inr (compare xs.length ys.length))

/-- Whether two parts, nested at most to a given depth, are ordered as asked for. -/
def orderedWithin (heap : Heap) (comparison : Comparison) :
    Nat → Value → Value → Except Failure Bool
  | 0, _, _ => .error (.fault .recursion)
  | depth + 1, a, b =>
    let agree (x y : Value) : Except Fault Bool :=
      if x.isIdentical y then .ok true else heap.equalWithin depth x y
    let sequences (xs ys : List Value) : Except Failure Bool := do
      match ← liftFault (firstDifference agree xs ys) with
      | .inl (x, y) => orderedWithin heap comparison depth x y
      | .inr order => return comparison.holds order
    let unordered := notOrdered comparison (heap.partTypeName a) (heap.partTypeName b)
    match a, b with
    | .str x, .str y => .ok (comparison.holds (compare x y))
    | .list x, .list y => sequences (heap.list x).toList (heap.list y).toList
    | .tuple _ xs, .tuple _ ys => sequences xs ys
    | a, b =>
      match heap.members? a, heap.members? b with
      | some keys, some others => .ok (comparison.holdsOfSets keys others)
      | _, _ =>
        match heap.bytes? a, heap.bytes? b with
        | some left, some right =>
          .ok (comparison.holds (compare (left.map (·.toNat)) (right.map (·.toNat))))
        | _, _ =>
          match a.numeric?, b.numeric? with
          | some (.complex _ _), _ | _, some (.complex _ _) => .error unordered
          | some m, some n =>
            match m.compare? n with
            | some order => .ok (comparison.holds order)
            | none => .ok false
          | _, _ => .error unordered

/-- The value is an integer or a double. -/
def isReal : Value → Bool
  | .int _ | .float _ => true
  | _ => false

/-- Two values can be ordered: both are real numbers, both are sets, or both are texts, bytes,
lists or tuples. -/
def areOrdered (heap : Heap) (a b : Value) : Bool :=
  (isReal a && isReal b) || ((heap.members? a).isSome && (heap.members? b).isSome) ||
    match a, b with
    | .str _, .str _ | .list _, .list _ | .tuple _ _, .tuple _ _ | .bytes _, .bytes _ => true
    | _, _ => false

/-- Whether two values are ordered as asked for. -/
def ordered (heap : Heap) (comparison : Comparison) (a b : Value) : Except Failure Bool :=
  if heap.areOrdered a b then heap.orderedWithin comparison heap.nestingLimit a b
  else .error (notOrdered comparison (heap.typeName a) (heap.typeName b))

end Heap

namespace Action

/-- Whether two values are equal. -/
def equal (a b : Value) : Action Bool := do
  ofFault ((← get).equal a b)

/-- Whether two values are the same object or equal. -/
def sameOrEqual (a b : Value) : Action Bool := do
  ofFault ((← get).sameOrEqual a b)

end Action

end Script
