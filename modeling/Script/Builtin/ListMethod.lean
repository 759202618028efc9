import Script.Builtin.Method

/-!
# Methods of lists and tuples

Items are found by sameness or equality. A list is sorted by the texts of its items; while it is
being sorted it is empty, so a list that contains itself can be sorted.
-/

namespace Script.Builtin

open Action

/-- The first place, counted from `place`, of an item that is the same as the value or equal to
it. -/
def placeOf (value : Value) (place : Nat) : List Value → Action (Option Nat)
  | [] => return none
  | item :: items => do
    if ← sameOrEqual item value then return some place else placeOf value (place + 1) items

/-- The number of items that are the same as the value or equal to it. -/
def countOf (value : Value) : List Value → Action Nat
  | [] => return 0
  | item :: items => do
    if ← sameOrEqual item value then return (← countOf value items) + 1
    else countOf value items

/-- The place of a value that has to be among the items. -/
def indexOf (kind : String) (items : List Value) (value : Value) : Action Value := do
  match ← placeOf value 0 items with
  | some place => return .int place
  | none => raise .valueError s!"{kind}.index(x): x not in {kind}"

/-- Takes an item out of a list: the last one, or the one at a place. -/
def listPop (id : ListId) (place : Value) : Action Value := do
  let items := (← get).list id
  if items.isEmpty then raise .indexError "pop from empty list"
  let place ←
    match place with
    | .null => pure (items.size - 1)
    | _ => do
      let n ← requireInt "pop()" place
      if n < 0 || (items.size : Int) ≤ n then raise .indexError "pop index out of range"
      pure n.toNat
  setList id fun items => items.eraseIdxIfInBounds place
  return items.getD place .null

/-- The place at which an item is inserted: a negative one counts from the end, and all are kept
within the list. -/
def insertPlace (size : Nat) (place : Int) : Nat :=
  if place < 0 then (place + size).toNat else min place.toNat size

/-- Inserts an item into a list. -/
def listInsert (id : ListId) (place value : Value) : Action Value := do
  let n ← requireInt "insert()" place
  let n ← requireSize n
  setList id fun items => items.insertIdxIfInBounds (insertPlace items.size n) value
  return .null

/-- Removes the first item that is the same as the value or equal to it. -/
def listRemove (id : ListId) (value : Value) : Action Value := do
  match ← placeOf value 0 ((← get).list id).toList with
  | some place =>
    setList id fun items => items.eraseIdxIfInBounds place
    return .null
  | none => raise .valueError "list.remove(x): x not in list"

/-- Items in the order of their texts; items with equal texts keep their order. -/
def sortByText (items : List (String × Value)) : List Value :=
  (items.mergeSort fun a b => decide (a.1 ≤ b.1)).map (·.2)

/-- Sorts a list by the texts of its items, as they are while the list is empty. -/
def listSort (id : ListId) : Action Value := do
  let items := ((← get).list id).toList
  setList id fun _ => #[]
  let keyed ← items.mapM fun item => do return (← display item, item)
  setList id fun _ => (sortByText keyed).toArray
  return .null

/-- The methods of a list. -/
def listMethod? (id : ListId) : String → Option Method
  | "len" => some (.nullary do return .int ((← get).list id).size)
  | "append" => some (.unary fun value => do
      setList id (·.push value)
      return .null)
  | "pop" => some (.optional (listPop id))
  | "extend" => some (.unary fun other => do
      let items ← itemsOf other
      setList id (· ++ items.toArray)
      return .null)
  | "insert" => some
      ⟨2, 2, fun
        | [place, value] => listInsert id place value
        | _ => return .null⟩
  | "remove" => some (.unary (listRemove id))
  | "clear" => some (.nullary do
      setList id fun _ => #[]
      return .null)
  | "copy" => some (.nullary do newList ((← get).list id))
  | "index" => some (.unary fun value => do indexOf "list" ((← get).list id).toList value)
  | "count" => some (.unary fun value => do
      return .int (← countOf value ((← get).list id).toList))
  | "reverse" => some (.nullary do
      setList id Array.reverse
      return .null)
  | "sort" => some (.nullary (listSort id))
  | _ => none

/-- The methods of a tuple. -/
def tupleMethod? (items : List Value) : String → Option Method
  | "len" => some (.nullary (return .int items.length))
  | "count" => some (.unary fun value => do return .int (← countOf value items))
  | "index" => some (.unary (indexOf "tuple" items))
  | _ => none

end Script.Builtin
