import Script.Proofs.Builtin.Procedure

/-!
# Built-in methods in place

Every method and every assignment to an item as a procedure, with each check and each write a step
of its own, in the order in which the machine makes them. Where the heap of a failure is given up
these procedures are the methods and assignments of the language (`forget_call_method`,
`forget_set_item`). The main result is what they leave alone: a call that fails has changed no
object, and one that succeeds none but its receiver and, if that is an error, its notes.
-/

namespace Script

namespace Builtin.InPlace

open Action Procedure

/-! ## Methods of lists -/

/-- Takes an item out of a list: the last one, or the one at a place. -/
def listPop (id : ListId) (place : Value) : Procedure Value := do
  let items := (← step get).list id
  if items.isEmpty then step (raise .indexError "pop from empty list")
  let place ←
    match place with
    | .null => pure (items.size - 1)
    | _ => do
      let n ← step (requireInt "pop()" place)
      if n < 0 || (items.size : Int) ≤ n then step (raise .indexError "pop index out of range")
      pure n.toNat
  step (setList id fun items => items.eraseIdxIfInBounds place)
  return items.getD place .null

/-- Appends the items of a value. -/
def listExtend (id : ListId) (other : Value) : Procedure Value := do
  let items ← step (itemsOf other)
  step (setList id (· ++ items.toArray))
  return .null

/-- Inserts an item into a list. -/
def listInsert (id : ListId) (place value : Value) : Procedure Value := do
  let n ← step (requireInt "insert()" place)
  let n ← step (requireSize n)
  step (setList id fun items => items.insertIdxIfInBounds (insertPlace items.size n) value)
  return .null

/-- Removes the first item that is the same as the value or equal to it. -/
def listRemove (id : ListId) (value : Value) : Procedure Value := do
  match ← step (placeOf value 0 ((← get).list id).toList) with
  | some place =>
    step (setList id fun items => items.eraseIdxIfInBounds place)
    return .null
  | none => step (raise .valueError "list.remove(x): x not in list")

/-- Sorts a list. While the texts of the items are asked for the list is empty; if one of them has
no text, the list gets its items back. -/
def listSort (id : ListId) : Procedure Value := do
  let items := (← step get).list id
  step (setList id fun _ => #[])
  let texts ← orElseUndo (items.toList.mapM fun item => do return (← step (display item), item))
    fun heap => { heap with lists := heap.lists.modify id fun _ => items }
  step (setList id fun _ => (sortByText texts).toArray)
  return .null

/-- The methods that change a list. -/
def listWriter? (id : ListId) : String → Option (List Value → Procedure Value)
  | "append" => some fun items => do
      step (setList id (·.push (items.headD .null)))
      return .null
  | "pop" => some fun items => listPop id (items.headD .null)
  | "extend" => some fun items => listExtend id (items.headD .null)
  | "insert" => some fun
      | [place, value] => listInsert id place value
      | _ => return .null
  | "remove" => some fun items => listRemove id (items.headD .null)
  | "clear" => some fun _ => do
      step (setList id fun _ => #[])
      return .null
  | "reverse" => some fun _ => do
      step (setList id Array.reverse)
      return .null
  | "sort" => some fun _ => listSort id
  | _ => none

/-! ## Methods of dictionaries and sets -/

/-- Takes an entry out of a dictionary; without a default the key has to be there. -/
def dictPop (id : DictId) (key : Value) (default : Option Value) : Procedure Value := do
  step (ensureHashable key)
  match ((← step get).dict id).get? key, default with
  | some value, _ =>
    step (setDict id (·.erase key))
    return value
  | none, some value => return value
  | none, none => step (raise .keyError (← step (display key)))

/-- Binds the entries of another dictionary one by one. -/
def dictUpdate (id : DictId) (other : Value) : Procedure Value := do
  match other with
  | .dict source =>
    let entries := ((← step get).dict source).entries
    entries.forM fun entry => step (setDict id (·.insert entry.1 entry.2))
    return .null
  | _ =>
    let name ← step (typeName other)
    step (raise .typeError s!"update() argument must be dict, not {name}")

/-- The methods that change a dictionary. -/
def dictWriter? (id : DictId) : String → Option (List Value → Procedure Value)
  | "pop" => some fun
      | [key] => dictPop id key none
      | [key, default] => dictPop id key (some default)
      | _ => return .null
  | "update" => some fun items => dictUpdate id (items.headD .null)
  | "clear" => some fun _ => do
      step (setDict id fun _ => Dict.empty)
      return .null
  | _ => none

/-- Removes a key that has to be in the set. -/
def setRemove (id : SetId) (key : Value) : Procedure Value := do
  step (ensureHashable key)
  if Keys.mem key ((← step get).set id) then
    step (setSet id (Keys.erase · key))
    return .null
  else step (raise .keyError (← step (display key)))

/-- Takes a member out of a set. -/
def setPop (id : SetId) : Procedure Value := do
  match (← step get).set id with
  | [] => step (raise .keyError "pop from an empty set")
  | key :: rest =>
    step (setSet id fun _ => rest)
    return key

/-- The methods that change a set. -/
def setWriter? (id : SetId) : String → Option (List Value → Procedure Value)
  | "add" => some fun items => do
      step (ensureHashable (items.headD .null))
      step (setSet id (Keys.insert · (items.headD .null)))
      return .null
  | "remove" => some fun items => setRemove id (items.headD .null)
  | "discard" => some fun items => do
      step (ensureHashable (items.headD .null))
      step (setSet id (Keys.erase · (items.headD .null)))
      return .null
  | "pop" => some fun _ => setPop id
  | "clear" => some fun _ => do
      step (setSet id fun _ => [])
      return .null
  | _ => none

/-! ## Methods of byte arrays and errors -/

/-- Takes the last byte out of a byte array. -/
def bytearrayPop (id : ByteArrayId) : Procedure Value := do
  match ((← step get).bytearray id).getLast? with
  | none => step (raise .indexError "pop from empty bytearray")
  | some byte =>
    step (setBytearray id List.dropLast)
    return byteValue byte

/-- The methods that change a byte array. -/
def bytearrayWriter? (id : ByteArrayId) : String → Option (List Value → Procedure Value)
  | "append" => some fun items => do
      let byte ← step (requireByte (items.headD .null))
      step (setBytearray id (· ++ [byte]))
      return .null
  | "pop" => some fun _ => bytearrayPop id
  | _ => none

/-- Links an error to its cause, which also hides its context. -/
def errorWithCause (id : ErrorId) (cause : Value) : Procedure Value := do
  let cause ←
    match cause with
    | .null => pure none
    | .error cause => pure (some cause)
    | _ => step (raise .typeError "exception cause must be None or derive from BaseException")
  step (setError id fun error => { error with cause := cause, suppressContext := true })
  return .error id

/-- The methods that change an error. -/
def errorWriter? (id : ErrorId) : String → Option (List Value → Procedure Value)
  | "add_note" => some fun items => do
      let note ← step (requireText "add_note()" (items.headD .null))
      let error := (← step get).error id
      step (setList error.notes (·.push (.str note)))
      return .null
  | "with_cause" => some fun items => errorWithCause id (items.headD .null)
  | _ => none

/-! ## Calls and assignments -/

/-- The methods that change their receiver. -/
def writer? (receiver : Value) (name : String) : Option (List Value → Procedure Value) :=
  match receiver with
  | .list id => listWriter? id name
  | .dict id => dictWriter? id name
  | .set id => setWriter? id name
  | .bytearray id => bytearrayWriter? id name
  | .error id => errorWriter? id name
  | _ => none

/-- Runs a method on its arguments. One that only looks at its receiver is a single step. -/
def runMethod (receiver : Value) (name : String) (method : Method) (items : List Value) :
    Procedure Value :=
  match writer? receiver name with
  | some write => write items
  | none => step (method.run items)

/-- Calls the method of a value under a name. -/
def callMethod (receiver : Value) (name : String) (items : List Value) : Procedure Value := do
  let heap ← step get
  match method? heap receiver name with
  | none =>
    let receiverType ← step (typeName receiver)
    step (raise .attributeError s!"'{receiverType}' object has no attribute '{name}'")
  | some method =>
    if items.length < method.minimum || method.maximum < items.length then
      let receiverType ← step (typeName receiver)
      step (raise .typeError
        s!"{receiverType}.{name}() takes {method.expected} arguments ({items.length} given)")
    runMethod receiver name method items

/-- Replaces the item of a list or byte array at a place, or binds a key of a dictionary. -/
def setItem (collection index value : Value) : Procedure Unit := do
  let heap ← step get
  let place (length : Nat) : Procedure Nat :=
    step (requirePlace collection index (pure length) "assignment index out of range")
  match collection with
  | .dict id =>
    step (ensureHashable index)
    step (setDict id (·.insert index value))
  | .list id =>
    let place ← place (heap.list id).size
    step (setList id fun items => items.setIfInBounds place value)
  | .bytearray id =>
    let place ← place (heap.bytearray id).length
    match value with
    | .int n =>
      if n < 0 || 255 < n then step (raise .valueError "byte must be in range(0, 256)")
      step (setBytearray id fun bytes => bytes.set place (UInt8.ofNat n.toNat))
    | _ => step (raise .valueError "byte must be in range(0, 256)")
  | _ =>
    let name ← step (typeName collection)
    step (raise .typeError s!"'{name}' object does not support item assignment")

/-! ## The actions that the procedures amount to -/

/-- Changes of a dictionary that follow each other are one change. -/
theorem for_set_dict (id : DictId) {α : Type} (change : α → Dict → Dict) (changes : List α) :
    (forM changes fun item => step (setDict id (change item))) =
      step (setDict id fun dict => changes.foldl (fun dict item => change item dict) dict) := by
  funext heap
  induction changes generalizing heap with
  | nil =>
      show (_, heap) = (_, { heap with dicts := heap.dicts.modify id fun contents => contents })
      rw [Store.modify_self]
  | cons item changes ih =>
      show (forM changes fun item => step (setDict id (change item)))
        { heap with dicts := heap.dicts.modify id (change item) } = _
      rw [ih]
      simp only [step, setDict, List.foldl_cons]
      show (_, _) = (_, _)
      simp only [Store.modify_modify]

theorem forget_list_pop (id : ListId) (place : Value) :
    (listPop id place).forget = Builtin.listPop id place := by
  by_cases hplace : place = .null
  · subst hplace
    simp [listPop, Builtin.listPop]
  · simp [listPop, Builtin.listPop]

theorem forget_list_insert (id : ListId) (place value : Value) :
    (listInsert id place value).forget = Builtin.listInsert id place value := by
  simp [listInsert, Builtin.listInsert]

theorem forget_list_remove (id : ListId) (value : Value) :
    (listRemove id value).forget = Builtin.listRemove id value := by
  simp only [listRemove, Builtin.listRemove, forget_bind, forget_step]
  congr 1
  funext heap
  congr 1
  funext found
  cases found <;> simp

theorem forget_list_sort (id : ListId) : (listSort id).forget = Builtin.listSort id := by
  simp [listSort, Builtin.listSort]

theorem forget_dict_pop (id : DictId) (key : Value) (default : Option Value) :
    (dictPop id key default).forget = Builtin.dictPop id key default := by
  simp only [dictPop, Builtin.dictPop, forget_bind, forget_step]
  congr 1
  funext _
  congr 1
  funext heap
  cases (heap.dict id).get? key <;> cases default <;> simp

theorem forget_dict_update (id : DictId) (other : Value) :
    (dictUpdate id other).forget = Builtin.dictUpdate id other := by
  unfold dictUpdate Builtin.dictUpdate
  split
  · simp [for_set_dict, Dict.insertAll]
  · simp

theorem forget_set_remove (id : SetId) (key : Value) :
    (setRemove id key).forget = Builtin.setRemove id key := by
  simp [setRemove, Builtin.setRemove]

theorem forget_set_pop (id : SetId) : (setPop id).forget = Builtin.setPop id := by
  simp only [setPop, Builtin.setPop, forget_bind, forget_step]
  congr 1
  funext heap
  cases heap.set id <;> simp

theorem forget_bytearray_pop (id : ByteArrayId) :
    (bytearrayPop id).forget = Builtin.bytearrayPop id := by
  simp only [bytearrayPop, Builtin.bytearrayPop, forget_bind, forget_step]
  congr 1
  funext heap
  cases (heap.bytearray id).getLast? <;> simp

theorem forget_error_with_cause (id : ErrorId) (cause : Value) :
    (errorWithCause id cause).forget = Builtin.errorWithCause id cause := by
  unfold errorWithCause Builtin.errorWithCause
  split <;> simp

/-- Every method that changes a list. -/
theorem forget_list_writer {id : ListId} {name : String} {method : Method}
    {write : List Value → Procedure Value} (hmethod : listMethod? id name = some method)
    (hwrite : listWriter? id name = some write) (items : List Value) :
    (write items).forget = method.run items := by
  unfold listWriter? at hwrite
  split at hwrite
  all_goals cases hwrite
  all_goals cases hmethod
  case h_4 =>
    dsimp only
    split <;> simp [forget_list_insert]
  all_goals simp [Method.unary, Method.nullary, Method.optional, listExtend, forget_list_pop,
    forget_list_remove, forget_list_sort]

/-- Every method that changes a dictionary. -/
theorem forget_dict_writer {id : DictId} {name : String} {method : Method}
    {write : List Value → Procedure Value} (hmethod : dictMethod? id name = some method)
    (hwrite : dictWriter? id name = some write) (items : List Value) :
    (write items).forget = method.run items := by
  unfold dictWriter? at hwrite
  split at hwrite
  all_goals cases hwrite
  all_goals cases hmethod
  case h_1 =>
    dsimp only
    split <;> simp [forget_dict_pop]
  all_goals simp [Method.unary, Method.nullary, forget_dict_update]

/-- Every method that changes a set. -/
theorem forget_set_writer {id : SetId} {keys : List Value} {name : String} {method : Method}
    {write : List Value → Procedure Value} (hmethod : setMethod? id keys name = some method)
    (hwrite : setWriter? id name = some write) (items : List Value) :
    (write items).forget = method.run items := by
  unfold setWriter? at hwrite
  split at hwrite
  all_goals cases hwrite
  all_goals cases hmethod
  all_goals simp [Method.unary, Method.nullary, forget_set_remove, forget_set_pop]

/-- Every method that changes a byte array. -/
theorem forget_bytearray_writer {id : ByteArrayId} {bytes : List UInt8} {name : String}
    {method : Method} {write : List Value → Procedure Value}
    (hmethod : bytearrayMethod? id bytes name = some method)
    (hwrite : bytearrayWriter? id name = some write) (items : List Value) :
    (write items).forget = method.run items := by
  unfold bytearrayWriter? at hwrite
  split at hwrite
  all_goals cases hwrite
  all_goals cases hmethod
  all_goals simp [Method.unary, Method.nullary, forget_bytearray_pop]

/-- Every method that changes an error. -/
theorem forget_error_writer {id : ErrorId} {name : String} {method : Method}
    {write : List Value → Procedure Value} (hmethod : errorMethod? id name = some method)
    (hwrite : errorWriter? id name = some write) (items : List Value) :
    (write items).forget = method.run items := by
  unfold errorWriter? at hwrite
  split at hwrite
  all_goals cases hwrite
  all_goals cases hmethod
  all_goals simp [Method.unary, forget_error_with_cause]

theorem forget_run_method {heap : Heap} {receiver : Value} {name : String} {method : Method}
    (h : method? heap receiver name = some method) (items : List Value) :
    (runMethod receiver name method items).forget = method.run items := by
  unfold runMethod
  split
  · rename_i write hwrite
    unfold writer? at hwrite
    split at hwrite
    · exact forget_list_writer h hwrite items
    · exact forget_dict_writer h hwrite items
    · exact forget_set_writer h hwrite items
    · exact forget_bytearray_writer h hwrite items
    · exact forget_error_writer h hwrite items
    · cases hwrite
  · exact forget_step _

/-- Where the heap of a failure is given up, a call in place is the call of the language. -/
theorem forget_call_method (receiver : Value) (name : String) (items : List Value) :
    (callMethod receiver name items).forget = Builtin.callMethod receiver name items := by
  simp only [callMethod, Builtin.callMethod, forget_bind, forget_step]
  congr 1
  funext heap
  cases hmethod : method? heap receiver name with
  | none => simp
  | some method =>
      simp [forget_run_method hmethod]

theorem forget_set_item (collection index value : Value) :
    (setItem collection index value).forget = Builtin.setItem collection index value := by
  simp only [setItem, Builtin.setItem, forget_bind, forget_step]
  congr 1
  funext heap
  split
  · simp
  · simp
  · simp only [forget_bind, forget_step]
    congr 1
    funext place
    split <;> simp
  · simp

/-! ## What is left alone -/

variable {heap : Heap}

theorem confined_list_pop (id : ListId) (place : Value) :
    (listPop id place).ConfinedAt (· = .list id) heap := by
  refine confined_get (confined_check _ _ ?_)
  have htake (items : Array Value) (place : Nat) (heap : Heap) :
      ConfinedAt (do
        step (setList id fun items => items.eraseIdxIfInBounds place)
        return items.getD place .null) (· = .list id) heap :=
    confined_result (confined_step (within_set_list rfl _)) _
  split
  · exact htake _ _ heap
  · refine confined_bind (confined_step (within_require_int _ _)) fun n middle => ?_
    exact confined_check _ _ (htake _ _ middle)

theorem confined_list_insert (id : ListId) (place value : Value) :
    (listInsert id place value).ConfinedAt (· = .list id) heap := by
  refine confined_bind (confined_step (within_require_int _ _)) fun n _ => ?_
  refine confined_bind (confined_step (within_require_size _)) fun n _ => ?_
  exact confined_result (confined_step (within_set_list rfl _)) _

theorem confined_list_remove (id : ListId) (value : Value) :
    (listRemove id value).ConfinedAt (· = .list id) heap := by
  refine confined_get ?_
  refine confined_bind (confined_step (within_place_of _ _ _)) fun found _ => ?_
  cases found with
  | none => exact confined_step (within_raise _ _)
  | some place => exact confined_result (confined_step (within_set_list rfl _)) _

theorem confined_dict_pop (id : DictId) (key : Value) (default : Option Value) :
    (dictPop id key default).ConfinedAt (· = .dict id) heap := by
  refine confined_bind (confined_step (within_ensure_hashable _)) fun _ middle => ?_
  refine confined_get ?_
  split
  · exact confined_result (confined_step (within_set_dict rfl _)) _
  · exact confined_pure _
  · exact confined_bind (confined_step (within_display trivial _)) fun text _ =>
      confined_step (within_raise _ _)

theorem confined_dict_update (id : DictId) (other : Value) :
    (dictUpdate id other).ConfinedAt (· = .dict id) heap := by
  unfold dictUpdate
  split
  · refine confined_get ?_
    simp only [List.forM_eq_forM, for_set_dict]
    exact confined_result (confined_step (within_set_dict rfl _)) _
  · exact confined_bind (confined_step (within_type_name _)) fun name _ =>
      confined_step (within_raise _ _)

theorem confined_set_remove (id : SetId) (key : Value) :
    (setRemove id key).ConfinedAt (· = .set id) heap := by
  refine confined_bind (confined_step (within_ensure_hashable _)) fun _ middle => ?_
  refine confined_get ?_
  split
  · exact confined_result (confined_step (within_set_set rfl _)) _
  · exact confined_bind (confined_step (within_display trivial _)) fun text _ =>
      confined_step (within_raise _ _)

theorem confined_set_pop (id : SetId) : (setPop id).ConfinedAt (· = .set id) heap := by
  refine confined_get ?_
  split
  · exact confined_step (within_raise _ _)
  · exact confined_result (confined_step (within_set_set rfl _)) _

theorem confined_bytearray_pop (id : ByteArrayId) :
    (bytearrayPop id).ConfinedAt (· = .bytearray id) heap := by
  refine confined_get ?_
  split
  · exact confined_step (within_raise _ _)
  · exact confined_result (confined_step (within_set_bytearray rfl _)) _

theorem confined_error_with_cause (id : ErrorId) (cause : Value) :
    (errorWithCause id cause).ConfinedAt (· = .error id) heap := by
  have hlink (cause : Option ErrorId) (heap : Heap) :
      ConfinedAt (do
        step (setError id fun error => { error with cause := cause, suppressContext := true })
        return Value.error id) (· = .error id) heap :=
    confined_result (confined_step (within_set_cause rfl cause)) _
  unfold errorWithCause
  split
  · exact hlink none heap
  · exact hlink _ heap
  · exact confined_bind (confined_step (within_raise _ _)) fun cause middle => hlink cause middle

theorem confined_list_sort (id : ListId) : (listSort id).ConfinedAt (· = .list id) heap := by
  let emptied : Heap := { heap with lists := heap.lists.modify id fun _ => #[] }
  let texts : Procedure (List (String × Value)) :=
    (heap.list id).toList.mapM fun item => do return (← step (display item), item)
  have htexts : texts.ConfinedAt (fun _ => False) emptied :=
    confined_map_m (fun item middle => confined_result (confined_step (within_display trivial _)) _)
      _ _
  have hemptied : heap.Spares (· = .list id) emptied :=
    (confined_step (within_set_list rfl fun _ => #[])).done rfl
  have hrun : listSort id heap = (do
      let texts ← texts.orElseUndo fun middle =>
        { middle with lists := middle.lists.modify id fun _ => heap.list id }
      step (setList id fun _ => (sortByText texts).toArray)
      return .null : Procedure Value) emptied := rfl
  rw [bind_run] at hrun
  rcases hmiddle : texts emptied with ⟨failure | texts, middle⟩
  · rw [or_else_undo_error hmiddle] at hrun
    have hkept := htexts.failed hmiddle
    refine ⟨fun h => ?_, fun h => ?_⟩
    · cases hrun.symm.trans h
    · cases hrun.symm.trans h
      exact { hkept with lists := hkept.lists.restore }
  · rw [or_else_undo_ok hmiddle] at hrun
    have hkept := htexts.done hmiddle
    refine ⟨fun h => ?_, fun h => ?_⟩
    · cases hrun.symm.trans h
      have hsorted : middle.Spares (· = .list id)
          { middle with lists := middle.lists.modify id fun _ => (sortByText texts).toArray } :=
        (confined_step (within_set_list rfl fun _ => (sortByText texts).toArray)).done rfl
      exact hemptied.trans (.trans (.of_preserves hkept) hsorted)
    · cases hrun.symm.trans h

/-- What a method may change: its receiver, and the notes of a receiver that is an error. -/
def reach (heap : Heap) (receiver object : Value) : Prop :=
  object = receiver ∨ ∃ id, receiver = .error id ∧ object = .list (heap.error id).notes

theorem confined_list_writer {id : ListId} {name : String} {write : List Value → Procedure Value}
    (h : listWriter? id name = some write) (items : List Value) :
    (write items).ConfinedAt (· = .list id) heap := by
  have hwrite (change : Array Value → Array Value) (heap : Heap) :
      ConfinedAt (do step (setList id change); return Value.null) (· = .list id) heap :=
    confined_result (confined_step (within_set_list rfl change)) _
  unfold listWriter? at h
  split at h
  all_goals cases h
  · exact hwrite _ heap
  · exact confined_list_pop id _
  · exact confined_bind (confined_step (within_items_of _)) fun _ middle => hwrite _ middle
  · dsimp only
    split
    · exact confined_list_insert id _ _
    · exact confined_pure _
  · exact confined_list_remove id _
  · exact hwrite _ heap
  · exact hwrite _ heap
  · exact confined_list_sort id

theorem confined_dict_writer {id : DictId} {name : String} {write : List Value → Procedure Value}
    (h : dictWriter? id name = some write) (items : List Value) :
    (write items).ConfinedAt (· = .dict id) heap := by
  unfold dictWriter? at h
  split at h
  all_goals cases h
  · dsimp only
    split
    · exact confined_dict_pop id _ _
    · exact confined_dict_pop id _ _
    · exact confined_pure _
  · exact confined_dict_update id _
  · exact confined_result (confined_step (within_set_dict rfl _)) _

theorem confined_set_writer {id : SetId} {name : String} {write : List Value → Procedure Value}
    (h : setWriter? id name = some write) (items : List Value) :
    (write items).ConfinedAt (· = .set id) heap := by
  have hwrite (change : List Value → List Value) (heap : Heap) :
      ConfinedAt (do step (setSet id change); return Value.null) (· = .set id) heap :=
    confined_result (confined_step (within_set_set rfl change)) _
  unfold setWriter? at h
  split at h
  all_goals cases h
  · exact confined_bind (confined_step (within_ensure_hashable _)) fun _ middle => hwrite _ middle
  · exact confined_set_remove id _
  · exact confined_bind (confined_step (within_ensure_hashable _)) fun _ middle => hwrite _ middle
  · exact confined_set_pop id
  · exact hwrite _ heap

theorem confined_bytearray_writer {id : ByteArrayId} {name : String}
    {write : List Value → Procedure Value} (h : bytearrayWriter? id name = some write)
    (items : List Value) : (write items).ConfinedAt (· = .bytearray id) heap := by
  unfold bytearrayWriter? at h
  split at h
  all_goals cases h
  · refine confined_bind (confined_step (within_require_byte _)) fun byte _ => ?_
    exact confined_result (confined_step (within_set_bytearray rfl _)) _
  · exact confined_bytearray_pop id

theorem require_text_run {owner note : String} {value : Value} {after : Heap}
    (h : step (requireText owner value) heap = (.ok note, after)) : heap = after := by
  unfold requireText at h
  split at h
  · cases h
    rfl
  · cases h

/-- A note goes into the list that the error has for its notes at that moment. -/
theorem confined_error_writer {id : ErrorId} {name : String} {write : List Value → Procedure Value}
    (h : errorWriter? id name = some write) (items : List Value) :
    (write items).ConfinedAt (reach heap (.error id)) heap := by
  unfold errorWriter? at h
  split at h
  all_goals cases h
  · refine confined_bind_of_run (confined_step (within_require_text _ _)) fun note middle hrun => ?_
    obtain rfl := require_text_run hrun
    refine confined_get (confined_result (confined_step (within_set_list ?_ _)) _)
    exact .inr ⟨id, rfl, rfl⟩
  · exact (confined_error_with_cause id _).mono fun object => .inl

theorem within_list_looker {id : ListId} {name : String} {method : Method} {limits : Limits}
    (hmethod : listMethod? id name = some method) (h : listWriter? id name = none) :
    method.Within limits := by
  unfold listMethod? at hmethod
  split at hmethod
  all_goals cases hmethod
  all_goals cases h
  all_goals grind

theorem within_dict_looker {id : DictId} {name : String} {method : Method} {limits : Limits}
    (hmethod : dictMethod? id name = some method) (h : dictWriter? id name = none) :
    method.Within limits := by
  unfold dictMethod? at hmethod
  split at hmethod
  all_goals cases hmethod
  all_goals cases h
  case h_5 =>
    intro items
    dsimp only
    split <;> grind
  all_goals grind

theorem within_set_looker {id : SetId} {keys : List Value} {name : String} {method : Method}
    {limits : Limits} (hmethod : setMethod? id keys name = some method)
    (h : setWriter? id name = none) : method.Within limits := by
  unfold setMethod? at hmethod
  split at hmethod
  case h_7 => exact within_common_set_method hmethod
  all_goals cases hmethod
  all_goals cases h
  exact Method.within_nullary (within_new_set keys)

theorem within_bytearray_looker {id : ByteArrayId} {bytes : List UInt8} {name : String}
    {method : Method} {limits : Limits} (hmethod : bytearrayMethod? id bytes name = some method)
    (h : bytearrayWriter? id name = none) : method.Within limits := by
  unfold bytearrayMethod? at hmethod
  split at hmethod
  · cases h
  · cases h
  · exact within_bytes_method hmethod

theorem within_error_looker {id : ErrorId} {name : String} {method : Method} {limits : Limits}
    (hmethod : errorMethod? id name = some method) (h : errorWriter? id name = none) :
    method.Within limits := by
  unfold errorMethod? at hmethod
  split at hmethod
  · cases h
  · cases h
  · cases hmethod

/-- A method that does not change its receiver changes no object. -/
theorem within_looker {receiver : Value} {name : String} {method : Method} {limits : Limits}
    (hmethod : method? heap receiver name = some method) (h : writer? receiver name = none) :
    method.Within limits := by
  unfold method? at hmethod
  split at hmethod
  · exact within_text_method hmethod
  · exact within_list_looker hmethod h
  · exact within_tuple_method hmethod
  · exact within_dict_looker hmethod h
  · exact within_set_looker hmethod h
  · exact within_frozenset_method hmethod
  · exact within_bytearray_looker hmethod h
  · exact within_bytes_method hmethod
  · exact within_error_looker hmethod h
  · cases hmethod

theorem confined_run_method {receiver : Value} {name : String} {method : Method}
    (hmethod : method? heap receiver name = some method) (items : List Value) :
    (runMethod receiver name method items).ConfinedAt (reach heap receiver) heap := by
  unfold runMethod
  split
  · rename_i write hwrite
    unfold writer? at hwrite
    split at hwrite
    · exact (confined_list_writer hwrite items).mono fun object => .inl
    · exact (confined_dict_writer hwrite items).mono fun object => .inl
    · exact (confined_set_writer hwrite items).mono fun object => .inl
    · exact (confined_bytearray_writer hwrite items).mono fun object => .inl
    · exact confined_error_writer hwrite items
    · cases hwrite
  · rename_i hlook
    exact confined_step (within_looker hmethod hlook items)

theorem confined_call_method (receiver : Value) (name : String) (items : List Value) :
    (callMethod receiver name items).ConfinedAt (reach heap receiver) heap := by
  refine confined_get ?_
  split
  · exact confined_bind (confined_step (within_type_name _)) fun _ _ =>
      confined_step (within_raise _ _)
  · rename_i method hmethod
    dsimp only
    split
    · -- No more is done after the number of arguments has been refused.
      constructor
      · intro _ _ hrun
        cases hrun
      · intro _ _ hrun
        cases hrun
        exact .refl heap
    · exact confined_run_method hmethod items

theorem confined_place (collection index : Value) (length : Nat) (complaint : String) :
    ConfinedAt (step (requirePlace collection index (pure length) complaint)) (fun _ => False)
      heap :=
  confined_step (within_require_place (within_pure length) _ _ _)

theorem confined_set_item (collection index value : Value) :
    (setItem collection index value).ConfinedAt (· = collection) heap := by
  refine confined_get ?_
  split
  · exact confined_bind (confined_step (within_ensure_hashable _)) fun _ _ =>
      confined_step (within_set_dict rfl _)
  · exact confined_bind (confined_place _ _ _ _) fun place _ =>
      confined_step (within_set_list rfl _)
  · refine confined_bind (confined_place _ _ _ _) fun place _ => ?_
    split
    · exact confined_check _ _ (confined_step (within_set_bytearray rfl _))
    · exact confined_step (within_raise _ _)
  · exact confined_bind (confined_step (within_type_name _)) fun _ _ =>
      confined_step (within_raise _ _)

end Builtin.InPlace

end Script
