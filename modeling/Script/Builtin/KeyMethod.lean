import Script.Builtin.Method

/-!
# Methods of dictionaries and sets

Keys have to be immutable. A key that is missing is reported by its text.
-/

namespace Script.Builtin

open Action

/-- Takes an entry out of a dictionary; without a default the key has to be there. -/
def dictPop (id : DictId) (key : Value) (default : Option Value) : Action Value := do
  ensureHashable key
  match ((← get).dict id).get? key, default with
  | some value, _ =>
    setDict id (·.erase key)
    return value
  | none, some value => return value
  | none, none => raise .keyError (← display key)

/-- The entries of a dictionary as tuples. -/
def dictItems : List (Value × Value) → Action (List Value)
  | [] => return []
  | (key, value) :: rest => do
    let item ← newTuple [key, value]
    return item :: (← dictItems rest)

/-- Binds all the entries of another dictionary. -/
def dictUpdate (id : DictId) (other : Value) : Action Value := do
  match other with
  | .dict source =>
    let entries := (← get).dict source
    setDict id (·.insertAll entries)
    return .null
  | _ =>
    let name ← typeName other
    raise .typeError s!"update() argument must be dict, not {name}"

/-- The value of a key, or a default. -/
def dictGet (id : DictId) (key default : Value) : Action Value := do
  ensureHashable key
  return (((← get).dict id).get? key).getD default

/-- The methods of a dictionary. -/
def dictMethod? (id : DictId) : String → Option Method
  | "len" => some (.nullary do return .int ((← get).dict id).size)
  | "keys" => some (.nullary do newList ((← get).dict id).keys.toArray)
  | "values" => some (.nullary do newList ((← get).dict id).values.toArray)
  | "items" => some (.nullary do
      let items ← dictItems ((← get).dict id).entries
      newList items.toArray)
  | "get" => some
      ⟨1, 2, fun
        | [key] => dictGet id key .null
        | [key, default] => dictGet id key default
        | _ => return .null⟩
  | "pop" => some
      ⟨1, 2, fun
        | [key] => dictPop id key none
        | [key, default] => dictPop id key (some default)
        | _ => return .null⟩
  | "update" => some (.unary (dictUpdate id))
  | "clear" => some (.nullary do
      setDict id fun _ => Dict.empty
      return .null)
  | "copy" => some (.nullary do newDict ((← get).dict id))
  | _ => none

/-- The methods that sets and frozen sets share; `self` is the set and `keys` its members. -/
def commonSetMethod? (self : Value) (keys : List Value) : String → Option Method
  | "len" => some (.nullary (return .int keys.length))
  | "union" => some (.unary fun other => do
      Operand.likeSet self (Keys.insertAll keys (← keysOf other)))
  | "intersection" => some (.unary fun other => do
      let items ← keysOf other
      Operand.likeSet self (Keys.ofList (items.filter fun item => Keys.mem item keys)))
  | "difference" => some (.unary fun other => do
      Operand.likeSet self (Keys.diff keys (← keysOf other)))
  | "symmetric_difference" => some (.unary fun other => do
      Operand.likeSet self (Keys.symmDiff keys (Keys.ofList (← keysOf other))))
  | "issubset" => some (.unary fun other => do
      return .bool (Keys.subset keys (← keysOf other)))
  | "issuperset" => some (.unary fun other => do
      return .bool (Keys.subset (← keysOf other) keys))
  | "isdisjoint" => some (.unary fun other => do
      return .bool (!(← keysOf other).any fun item => Keys.mem item keys))
  | _ => none

/-- The methods of a frozen set. A copy of it is the set itself. -/
def frozensetMethod? (mark : Nat) (keys : List Value) : String → Option Method
  | "copy" => some (.nullary (return .frozenset mark keys))
  | name => commonSetMethod? (.frozenset mark keys) keys name

/-- Removes a key that has to be in the set. -/
def setRemove (id : SetId) (key : Value) : Action Value := do
  ensureHashable key
  if Keys.mem key ((← get).set id) then
    setSet id (Keys.erase · key)
    return .null
  else raise .keyError (← display key)

/-- Takes a member out of a set. -/
def setPop (id : SetId) : Action Value := do
  match (← get).set id with
  | [] => raise .keyError "pop from an empty set"
  | key :: rest =>
    setSet id fun _ => rest
    return key

/-- The methods of a set. -/
def setMethod? (id : SetId) (keys : List Value) : String → Option Method
  | "copy" => some (.nullary (newSet keys))
  | "add" => some (.unary fun key => do
      ensureHashable key
      setSet id (Keys.insert · key)
      return .null)
  | "remove" => some (.unary (setRemove id))
  | "discard" => some (.unary fun key => do
      ensureHashable key
      setSet id (Keys.erase · key)
      return .null)
  | "pop" => some (.nullary (setPop id))
  | "clear" => some (.nullary do
      setSet id fun _ => []
      return .null)
  | name => commonSetMethod? (.set id) keys name

end Script.Builtin
