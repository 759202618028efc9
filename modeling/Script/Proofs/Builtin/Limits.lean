import Mathlib.Data.List.Monad
import Script.Eval.Object
import Script.Proofs.Heap.Faults

/-!
# What built-in operations may do

`Limits` says what an operation may do besides making new objects and raising errors of the
language: which existing objects it may change, which errors it may give a note or a cause, and
which of the faults that the language has no error for it may stop with. `Action.Within` says that
an operation stays within limits. It is proved once for every operator, method and function, each
with the limits that it needs; what an operation leaves alone, and what it cannot fail with, is
read off from the limits.
-/

namespace Script

/-- The language has an error for the fault. -/
def Fault.hasError : Fault → Bool
  | .zeroPower | .longInteger | .stream _ => false
  | _ => true

/-- What an operation may do besides making objects and raising errors. -/
structure Limits where
  /-- The lists, dictionaries, sets and byte arrays that may be changed. -/
  objects : Value → Prop
  /-- The errors that may get a note. -/
  noted : ErrorId → Prop
  /-- The errors that may get a cause. -/
  linked : ErrorId → Prop
  /-- The faults that may be reported, besides those that the language has an error for. -/
  faults : Fault → Prop

namespace Limits

/-- Nothing may be done but to make objects and to raise errors. -/
def none : Limits :=
  ⟨fun _ => False, fun _ => False, fun _ => False, fun _ => False⟩

/-- The fault may be reported. -/
def allows (limits : Limits) (fault : Fault) : Prop :=
  fault.hasError = false → limits.faults fault

variable {limits : Limits}

@[grind ←]
theorem allows_recursion : limits.allows .recursion :=
  fun h => nomatch h

@[grind ←]
theorem allows_memory : limits.allows .memory :=
  fun h => nomatch h

@[grind ←]
theorem allows_overflow (message : String) : limits.allows (.overflow message) :=
  fun h => nomatch h

@[grind ←]
theorem allows_of_faults {fault : Fault} (h : limits.faults fault) : limits.allows fault :=
  fun _ => h

end Limits

namespace Heap

variable {limits : Limits}

/-- What a heap can become within limits. -/
inductive Changes (limits : Limits) : Heap → Heap → Prop where
  | refl (heap : Heap) : Changes limits heap heap
  | trans {first second third : Heap} :
      Changes limits first second → Changes limits second third → Changes limits first third
  | mark (heap : Heap) : Changes limits heap { heap with nextMark := heap.nextMark + 1 }
  | newList (heap : Heap) (items : Array Value) :
      Changes limits heap { heap with lists := heap.lists.push items }
  | newDict (heap : Heap) (dict : Dict) :
      Changes limits heap { heap with dicts := heap.dicts.push dict }
  | newSet (heap : Heap) (keys : List Value) :
      Changes limits heap { heap with sets := heap.sets.push keys }
  | newBytearray (heap : Heap) (bytes : List UInt8) :
      Changes limits heap { heap with bytearrays := heap.bytearrays.push bytes }
  | newError (heap : Heap) (kind : ErrorKind) (arguments : List String) :
      Changes limits heap
        { heap with
          lists := heap.lists.push #[]
          errors := heap.errors.push ⟨kind, arguments, heap.lists.next, none, none, false⟩ }
  | setList (heap : Heap) {id : ListId} (h : limits.objects (.list id))
      (change : Array Value → Array Value) :
      Changes limits heap { heap with lists := heap.lists.modify id change }
  | setDict (heap : Heap) {id : DictId} (h : limits.objects (.dict id)) (change : Dict → Dict) :
      Changes limits heap { heap with dicts := heap.dicts.modify id change }
  | setSet (heap : Heap) {id : SetId} (h : limits.objects (.set id))
      (change : List Value → List Value) :
      Changes limits heap { heap with sets := heap.sets.modify id change }
  | setBytearray (heap : Heap) {id : ByteArrayId} (h : limits.objects (.bytearray id))
      (change : List UInt8 → List UInt8) :
      Changes limits heap { heap with bytearrays := heap.bytearrays.modify id change }
  | addNote (heap : Heap) {id : ErrorId} (h : limits.noted id) (note : String) :
      Changes limits heap
        { heap with lists := heap.lists.modify (heap.error id).notes (·.push (.str note)) }
  | setCause (heap : Heap) {id : ErrorId} (h : limits.linked id) (cause : Option ErrorId) :
      Changes limits heap
        { heap with
          errors := heap.errors.modify id fun error =>
            { error with cause := cause, suppressContext := true } }

end Heap

namespace Action

variable {α β : Type} {limits : Limits}

/-- The operation changes the heap and reports faults only within the limits. -/
structure Within (limits : Limits) (action : Action α) : Prop where
  changes {heap : Heap} {result : α} {after : Heap} :
    action heap = .ok (result, after) → heap.Changes limits after
  allows {heap : Heap} {fault : Fault} :
    action heap = .error (.fault fault) → limits.allows fault

/-!
## The parts of an operation

From here on each lemma is a rule that follows the code of one operation; the rules for what it is
made of stand before it.
-/

/-- What is the case if the operation succeeds and changes nothing but what is said. -/
theorem Within.of_ok {action : Action α} (h : ∀ heap, ∃ result after,
    action heap = .ok (result, after) ∧ heap.Changes limits after) : action.Within limits := by
  constructor
  · intro heap result after hrun
    obtain ⟨_, _, heq, hchanges⟩ := h heap
    rw [heq] at hrun
    cases hrun
    exact hchanges
  · intro heap fault hrun
    obtain ⟨_, _, heq, _⟩ := h heap
    rw [heq] at hrun
    cases hrun

@[grind ←]
theorem within_pure (result : α) : (pure result : Action α).Within limits :=
  .of_ok fun heap => ⟨result, heap, rfl, .refl heap⟩

@[grind ←]
theorem within_bind {action : Action α} {next : α → Action β} (haction : action.Within limits)
    (hnext : ∀ result, (next result).Within limits) : (action >>= next).Within limits := by
  constructor
  · intro heap result after hrun
    simp only [bind, StateT.bind, Except.bind] at hrun
    split at hrun
    · cases hrun
    · rename_i middle hmiddle
      exact (haction.changes hmiddle).trans ((hnext _).changes hrun)
  · intro heap fault hrun
    simp only [bind, StateT.bind, Except.bind] at hrun
    split at hrun
    · rename_i failure hfailure
      cases hrun
      exact haction.allows hfailure
    · exact (hnext _).allows hrun

@[grind ←]
theorem within_get : (get : Action Heap).Within limits :=
  .of_ok fun heap => ⟨heap, heap, rfl, .refl heap⟩

@[grind ←]
theorem within_raise (kind : ErrorKind) (message : String) :
    (raise kind message : Action α).Within limits := by
  constructor
  · intro heap result after hrun
    cases hrun
  · intro heap fault hrun
    cases hrun

@[grind ←]
theorem within_stop {fault : Fault} (h : limits.allows fault) :
    (stop fault : Action α).Within limits := by
  constructor
  · intro heap result after hrun
    cases hrun
  · intro heap _ hrun
    cases hrun
    exact h

@[grind ←]
theorem within_map_m {action : α → Action β} (h : ∀ item, (action item).Within limits)
    (items : List α) : (items.mapM action).Within limits := by
  induction items with
  | nil => exact within_pure []
  | cons item items ih =>
      rw [List.mapM_cons]
      grind

@[grind ←]
theorem within_for_m {action : α → Action PUnit} (h : ∀ item, (action item).Within limits)
    (items : List α) : (items.forM action).Within limits := by
  induction items with
  | nil => exact within_pure _
  | cons item items ih =>
      show (action item >>= fun _ => items.forM action).Within limits
      exact within_bind (h item) fun _ => ih

@[grind ←]
theorem within_of_fault {result : Except Fault α}
    (h : ∀ fault, result = .error fault → limits.allows fault) :
    (ofFault result).Within limits := by
  unfold ofFault
  split
  · exact within_pure _
  · exact within_stop (h _ rfl)

@[grind ←]
theorem within_type_name (value : Value) : (typeName value).Within limits := by
  unfold typeName
  grind

/-! ## New objects and changed ones -/

@[grind ←]
theorem within_new_mark : newMark.Within limits :=
  .of_ok fun heap => ⟨_, _, rfl, .mark heap⟩

@[grind ←]
theorem within_new_list (items : Array Value) : (newList items).Within limits :=
  .of_ok fun heap => ⟨_, _, rfl, .newList heap items⟩

@[grind ←]
theorem within_new_dict (dict : Dict) : (newDict dict).Within limits :=
  .of_ok fun heap => ⟨_, _, rfl, .newDict heap dict⟩

@[grind ←]
theorem within_new_set (keys : List Value) : (newSet keys).Within limits :=
  .of_ok fun heap => ⟨_, _, rfl, .newSet heap keys⟩

@[grind ←]
theorem within_new_bytearray (bytes : List UInt8) : (newBytearray bytes).Within limits :=
  .of_ok fun heap => ⟨_, _, rfl, .newBytearray heap bytes⟩

@[grind ←]
theorem within_new_error (kind : ErrorKind) (arguments : List String) :
    (newError kind arguments).Within limits :=
  .of_ok fun heap => ⟨_, _, rfl, .newError heap kind arguments⟩

@[grind ←]
theorem within_new_tuple (items : List Value) : (newTuple items).Within limits := by
  unfold newTuple
  grind

@[grind ←]
theorem within_new_frozenset (keys : List Value) : (newFrozenset keys).Within limits := by
  unfold newFrozenset
  grind

@[grind ←]
theorem within_new_float (x : Float) : (newFloat x).Within limits := by
  unfold newFloat
  grind

@[grind ←]
theorem within_new_complex (re im : Float) : (newComplex re im).Within limits := by
  unfold newComplex
  grind

@[grind ←]
theorem within_set_list {id : ListId} (h : limits.objects (.list id))
    (change : Array Value → Array Value) : (setList id change).Within limits :=
  .of_ok fun heap => ⟨_, _, rfl, .setList heap h change⟩

@[grind ←]
theorem within_set_dict {id : DictId} (h : limits.objects (.dict id)) (change : Dict → Dict) :
    (setDict id change).Within limits :=
  .of_ok fun heap => ⟨_, _, rfl, .setDict heap h change⟩

@[grind ←]
theorem within_set_set {id : SetId} (h : limits.objects (.set id))
    (change : List Value → List Value) : (setSet id change).Within limits :=
  .of_ok fun heap => ⟨_, _, rfl, .setSet heap h change⟩

@[grind ←]
theorem within_set_bytearray {id : ByteArrayId} (h : limits.objects (.bytearray id))
    (change : List UInt8 → List UInt8) : (setBytearray id change).Within limits :=
  .of_ok fun heap => ⟨_, _, rfl, .setBytearray heap h change⟩

theorem within_set_cause {id : ErrorId} (h : limits.linked id) (cause : Option ErrorId) :
    (setError id fun error =>
      { error with cause := cause, suppressContext := true }).Within limits :=
  .of_ok fun heap => ⟨_, _, rfl, .setCause heap h cause⟩

/-! ## Texts, truth, equality and keys -/

@[grind ←]
theorem within_ensure_hashable (value : Value) : (ensureHashable value).Within limits := by
  unfold ensureHashable
  grind

@[grind ←]
theorem within_display (h : limits.faults .longInteger) (value : Value) :
    (display value).Within limits := by
  refine within_bind within_get fun heap => within_of_fault fun fault hfault => ?_
  obtain rfl | ⟨rfl, -⟩ := Heap.display_fault hfault
  · exact Limits.allows_recursion
  · exact Limits.allows_of_faults h

@[grind ←]
theorem within_range_length (range : Range) :
    (ofFault (Heap.rangeLength range)).Within limits := by
  unfold Heap.rangeLength
  grind

@[grind ←]
theorem within_is_truthy (value : Value) : (isTruthy value).Within limits := by
  refine within_bind within_get fun heap => within_of_fault fun fault hfault => ?_
  obtain ⟨message, rfl⟩ := Heap.is_truthy_fault hfault
  exact Limits.allows_overflow message

/-- A comparison that fails because values are nested too deeply. -/
theorem within_comparison {compare : Heap → Except Fault Bool}
    (h : ∀ heap fault, compare heap = .error fault → fault = .recursion) :
    Within limits (do ofFault (compare (← get))) := by
  refine within_bind within_get fun heap => within_of_fault fun fault hfault => ?_
  cases h heap fault hfault
  exact Limits.allows_recursion

@[grind ←]
theorem within_equal (a b : Value) : (equal a b).Within limits :=
  within_comparison fun _ _ => Heap.equal_fault

@[grind ←]
theorem within_same_or_equal (a b : Value) : (sameOrEqual a b).Within limits :=
  within_comparison fun _ _ => Heap.same_or_equal_fault

end Action

open Action

variable {limits : Limits}

/-! ## Arithmetic -/

namespace Arithmetic

variable {α : Type}

@[grind ←]
theorem within_float_of_int (n : Int) : (floatOfInt n).Within limits := by
  unfold floatOfInt
  grind

@[grind ←]
theorem within_to_complex (n : Number.Numeric) : (toComplex n).Within limits := by
  unfold toComplex
  grind

/-- An operator on numbers stays within limits if it does on each sort of number. -/
@[grind ←]
theorem within_promote {onInts : Int → Int → Action Value} {onFloats : Float → Float → Action Value}
    {onComplex : Number.Complex → Number.Complex → Action Value}
    (hints : ∀ a b, (onInts a b).Within limits) (hfloats : ∀ x y, (onFloats x y).Within limits)
    (hcomplex : ∀ a b, (onComplex a b).Within limits) (a b : Number.Numeric) :
    (promote onInts onFloats onComplex a b).Within limits := by
  unfold promote
  grind

@[grind ←]
theorem within_complex_result (z : Number.Complex) : (complexResult z).Within limits := by
  unfold complexResult
  grind

@[grind ←]
theorem within_add (a b : Number.Numeric) : (add a b).Within limits := by
  unfold add
  grind

@[grind ←]
theorem within_subtract (a b : Number.Numeric) : (subtract a b).Within limits := by
  unfold subtract
  grind

@[grind ←]
theorem within_multiply (a b : Number.Numeric) : (multiply a b).Within limits := by
  unfold multiply
  grind

@[grind ←]
theorem within_divide (a b : Number.Numeric) : (divide a b).Within limits := by
  unfold divide
  grind

@[grind ←]
theorem within_floor_divide (a b : Number.Numeric) : (floorDivide a b).Within limits := by
  unfold floorDivide
  grind

@[grind ←]
theorem within_remainder (a b : Number.Numeric) : (remainder a b).Within limits := by
  unfold remainder
  grind

@[grind ←]
theorem within_complex_power (h : limits.faults .zeroPower) (base exponent : Number.Complex) :
    (complexPower base exponent).Within limits := by
  unfold complexPower
  grind

@[grind ←]
theorem within_float_power (base exponent : Float) : (floatPower base exponent).Within limits := by
  unfold floatPower
  grind

@[grind ←]
theorem within_power (h : limits.faults .zeroPower) (a b : Number.Numeric) :
    (power a b).Within limits := by
  unfold power
  grind

@[grind ←]
theorem within_shift_left (n : Int) (places : Nat) : (shiftLeft n places).Within limits := by
  unfold shiftLeft
  grind

end Arithmetic

/-! ## Operators -/

namespace Operand

variable {α : Type}

@[grind ←]
theorem within_unsupported (symbol : String) (left right : Value) :
    (unsupported symbol left right : Action α).Within limits := by
  unfold unsupported
  grind

@[grind ←]
theorem within_repeat_items {tooLong : Fault} (h : limits.allows tooLong) (items : List α)
    (times : Nat) : (repeatItems items times tooLong).Within limits := by
  unfold repeatItems
  grind

@[grind ←]
theorem within_repeated (sequence : Value) (times : Int) :
    (repeated sequence times).Within limits := by
  unfold repeated
  grind

@[grind ←]
theorem within_add (left right : Value) : (add left right).Within limits := by
  unfold add
  grind

@[grind ←]
theorem within_like_set (model : Value) (keys : List Value) :
    (likeSet model keys).Within limits := by
  unfold likeSet
  grind

@[grind ←]
theorem within_on_sets (symbol : String) (combine : List Value → List Value → List Value)
    (left right : Value) : (onSets symbol combine left right).Within limits := by
  unfold onSets
  grind

@[grind ←]
theorem within_subtract (left right : Value) : (subtract left right).Within limits := by
  unfold subtract
  grind

@[grind ←]
theorem within_multiply (left right : Value) : (multiply left right).Within limits := by
  unfold multiply
  grind

@[grind ←]
theorem within_on_numbers {operation : Number.Numeric → Number.Numeric → Action Value}
    (h : ∀ a b, (operation a b).Within limits) (symbol : String) (left right : Value) :
    (onNumbers symbol operation left right).Within limits := by
  unfold onNumbers
  grind

@[grind ←]
theorem within_on_reals {operation : Number.Numeric → Number.Numeric → Action Value}
    (h : ∀ a b, (operation a b).Within limits) (symbol : String) (left right : Value) :
    (onReals symbol operation left right).Within limits := by
  unfold onReals
  grind

@[grind ←]
theorem within_bitwise (symbol : String) (onInts : Int → Int → Int)
    (combine : List Value → List Value → List Value) (left right : Value) :
    (bitwise symbol onInts combine left right).Within limits := by
  unfold bitwise
  grind

@[grind ←]
theorem within_shift {move : Int → Nat → Action Value}
    (h : ∀ n places, (move n places).Within limits) (symbol : String) (left right : Value) :
    (shift symbol move left right).Within limits := by
  unfold shift
  grind

@[grind ←]
theorem within_ordering (comparison : Heap.Comparison) (left right : Value) :
    (ordering comparison left right).Within limits := by
  refine within_bind within_get fun heap => ?_
  split
  · exact within_pure _
  · rename_i failure hfailure
    cases failure with
    | raised kind message => exact within_raise kind message
    | fault fault =>
        cases Heap.ordered_fault hfailure
        exact within_stop Limits.allows_recursion

@[grind ←]
theorem within_any_equal (value : Value) (items : List Value) :
    (anyEqual value items).Within limits := by
  induction items with
  | nil => exact within_pure false
  | cons item items ih =>
      unfold anyEqual
      grind

@[grind ←]
theorem within_bytes_contain (bytes : List UInt8) (item : Value) :
    (bytesContain bytes item).Within limits := by
  unfold bytesContain
  grind

@[grind ←]
theorem within_contains (container item : Value) : (contains container item).Within limits := by
  unfold contains
  grind

@[grind ←]
theorem within_is_same (left right : Value) : (isSame left right).Within limits :=
  within_comparison fun _ _ => Heap.same_fault

end Operand

/-- Every binary operator; of all of them only the power can meet a zero that it cannot take. -/
theorem BinaryOperator.within_operation {operator : BinaryOperator}
    (h : operator = .power → limits.faults .zeroPower) (left right : Value) :
    (operator.operation left right).Within limits := by
  cases operator <;> simp only [operation] <;> grind

/-- Turning an overflow into an error of the language neither changes the heap nor adds a
fault. -/
@[grind ←]
theorem BinaryOperator.within_apply {operator : BinaryOperator}
    (h : operator = .power → limits.faults .zeroPower) (left right : Value) :
    (operator.apply left right).Within limits := by
  have hoperation := within_operation h left right
  constructor
  · intro heap result after hrun
    simp only [apply] at hrun
    split at hrun
    · cases hrun
    · exact hoperation.changes hrun
  · intro heap fault hrun
    simp only [apply] at hrun
    split at hrun
    · cases hrun
    · exact hoperation.allows hrun

@[grind ←]
theorem UnaryOperator.within_apply (operator : UnaryOperator) (value : Value) :
    (operator.apply value).Within limits := by
  unfold apply
  grind

/-! ## Methods -/

/-- A method that stays within limits whatever its arguments are. -/
def Method.Within (limits : Limits) (method : Method) : Prop :=
  ∀ items, (method.run items).Within limits

namespace Method

@[grind ←]
theorem within_nullary {run : Action Value} (h : run.Within limits) : (nullary run).Within limits :=
  fun _ => h

@[grind ←]
theorem within_unary {run : Value → Action Value} (h : ∀ value, (run value).Within limits) :
    (unary run).Within limits :=
  fun _ => h _

@[grind ←]
theorem within_optional {run : Value → Action Value} (h : ∀ value, (run value).Within limits) :
    (optional run).Within limits :=
  fun _ => h _

end Method

namespace Builtin

@[grind ←]
theorem within_require_text (owner : String) (value : Value) :
    (requireText owner value).Within limits := by
  unfold requireText
  grind

@[grind ←]
theorem within_require_int (owner : String) (value : Value) :
    (requireInt owner value).Within limits := by
  unfold requireInt
  grind

@[grind ←]
theorem within_require_size (n : Int) : (requireSize n).Within limits := by
  unfold requireSize
  grind

@[grind ←]
theorem within_require_byte (value : Value) : (requireByte value).Within limits := by
  unfold requireByte
  grind

@[grind ←]
theorem within_check_count (name : String) (count low high : Nat) :
    (checkCount name count low high).Within limits := by
  unfold checkCount
  grind

/-- A check of a count that passes changes nothing. -/
theorem check_count_ok {name : String} {count low high : Nat} {result : Unit}
    {heap after : Heap}
    (h : checkCount name count low high heap = .ok (result, after)) :
    count ≤ high ∧ after = heap := by
  unfold checkCount at h
  split at h
  · cases h
  · rename_i hcount
    simp only [Bool.or_eq_true, decide_eq_true_eq, not_or, Nat.not_lt] at hcount
    cases h
    exact ⟨hcount.2, rfl⟩

@[grind ←]
theorem within_check_encoding (name : String) : (checkEncoding name).Within limits := by
  unfold checkEncoding
  grind

@[grind ←]
theorem within_items_of (value : Value) : (itemsOf value).Within limits := by
  unfold itemsOf rangeItems
  grind

@[grind ←]
theorem within_keys_of (value : Value) : (keysOf value).Within limits := by
  unfold keysOf
  grind

/-! ### Texts -/

@[grind ←]
theorem within_new_text_list (texts : List (List Char)) : (newTextList texts).Within limits := by
  unfold newTextList
  grind

@[grind ←]
theorem within_text_strip (s : String) (chars : Value) : (textStrip s chars).Within limits := by
  unfold textStrip
  grind

@[grind ←]
theorem within_text_split (s : String) (separator : Value) :
    (textSplit s separator).Within limits := by
  unfold textSplit
  grind

@[grind ←]
theorem within_join_texts (place : Nat) (items : List Value) :
    (joinTexts place items).Within limits := by
  fun_induction joinTexts place items <;> grind

@[grind ←]
theorem within_text_join (s : String) (items : Value) : (textJoin s items).Within limits := by
  unfold textJoin
  grind

@[grind ←]
theorem within_text_replace (s : String) (old new count : Value) :
    (textReplace s old new count).Within limits := by
  unfold textReplace
  grind

@[grind ←]
theorem within_text_affix (owner : String) (test : List Char → Bool) (affix : Value) :
    (textAffix owner test affix).Within limits := by
  unfold textAffix
  grind

/-- Every method of a text. -/
theorem within_text_method {s name : String} {method : Method}
    (h : textMethod? s name = some method) : method.Within limits := by
  unfold textMethod? at h
  split at h
  -- The methods that look at the number of their arguments are taken apart by hand.
  case h_7 =>
    cases h
    intro items
    dsimp only
    split <;> grind
  all_goals grind

/-! ### Lists and tuples -/

@[grind ←]
theorem within_place_of (value : Value) (place : Nat) (items : List Value) :
    (placeOf value place items).Within limits := by
  fun_induction placeOf value place items <;> grind

@[grind ←]
theorem within_count_of (value : Value) (items : List Value) :
    (countOf value items).Within limits := by
  fun_induction countOf value items <;> grind

@[grind ←]
theorem within_index_of (kind : String) (items : List Value) (value : Value) :
    (indexOf kind items value).Within limits := by
  unfold indexOf
  grind

@[grind ←]
theorem within_list_pop {id : ListId} (h : limits.objects (.list id)) (place : Value) :
    (listPop id place).Within limits := by
  unfold listPop
  grind

@[grind ←]
theorem within_list_insert {id : ListId} (h : limits.objects (.list id)) (place value : Value) :
    (listInsert id place value).Within limits := by
  unfold listInsert
  grind

@[grind ←]
theorem within_list_remove {id : ListId} (h : limits.objects (.list id)) (value : Value) :
    (listRemove id value).Within limits := by
  unfold listRemove
  grind

@[grind ←]
theorem within_list_sort {id : ListId} (h : limits.objects (.list id))
    (hlong : limits.faults .longInteger) : (listSort id).Within limits := by
  unfold listSort
  grind

/-- Every method of a list. -/
theorem within_list_method {id : ListId} {name : String} {method : Method}
    (h : listMethod? id name = some method) (hobject : limits.objects (.list id))
    (hlong : name = "sort" → limits.faults .longInteger) : method.Within limits := by
  unfold listMethod? at h
  split at h
  case h_5 =>
    cases h
    intro items
    dsimp only
    split <;> grind
  all_goals grind

/-- Every method of a tuple. -/
theorem within_tuple_method {items : List Value} {name : String} {method : Method}
    (h : tupleMethod? items name = some method) : method.Within limits := by
  unfold tupleMethod? at h
  grind

/-! ### Dictionaries and sets -/

@[grind ←]
theorem within_dict_pop {id : DictId} (h : limits.objects (.dict id))
    (hlong : limits.faults .longInteger) (key : Value) (default : Option Value) :
    (dictPop id key default).Within limits := by
  unfold dictPop
  grind

@[grind ←]
theorem within_dict_items (entries : List (Value × Value)) : (dictItems entries).Within limits := by
  fun_induction dictItems entries <;> grind

@[grind ←]
theorem within_dict_update {id : DictId} (h : limits.objects (.dict id)) (other : Value) :
    (dictUpdate id other).Within limits := by
  unfold dictUpdate
  grind

@[grind ←]
theorem within_dict_get (id : DictId) (key default : Value) :
    (dictGet id key default).Within limits := by
  unfold dictGet
  grind

/-- Every method of a dictionary. -/
theorem within_dict_method {id : DictId} {name : String} {method : Method}
    (h : dictMethod? id name = some method) (hobject : limits.objects (.dict id))
    (hlong : name = "pop" → limits.faults .longInteger) : method.Within limits := by
  unfold dictMethod? at h
  split at h
  case h_5 | h_6 =>
    cases h
    intro items
    dsimp only
    split <;> grind
  all_goals grind

/-- Every method that sets and frozen sets share. -/
theorem within_common_set_method {self : Value} {keys : List Value} {name : String}
    {method : Method} (h : commonSetMethod? self keys name = some method) :
    method.Within limits := by
  unfold commonSetMethod? at h
  grind

/-- Every method of a frozen set. -/
theorem within_frozenset_method {mark : Nat} {keys : List Value} {name : String}
    {method : Method} (h : frozensetMethod? mark keys name = some method) :
    method.Within limits := by
  unfold frozensetMethod? at h
  split at h
  · grind
  · exact within_common_set_method h

@[grind ←]
theorem within_set_remove {id : SetId} (h : limits.objects (.set id))
    (hlong : limits.faults .longInteger) (key : Value) : (setRemove id key).Within limits := by
  unfold setRemove
  grind

@[grind ←]
theorem within_set_pop {id : SetId} (h : limits.objects (.set id)) :
    (setPop id).Within limits := by
  unfold setPop
  grind

/-- Every method of a set. -/
theorem within_set_method {id : SetId} {keys : List Value} {name : String}
    {method : Method} (h : setMethod? id keys name = some method)
    (hobject : limits.objects (.set id)) (hlong : name = "remove" → limits.faults .longInteger) :
    method.Within limits := by
  unfold setMethod? at h
  split at h
  case h_7 => exact within_common_set_method h
  all_goals grind

/-! ### Bytes and errors -/

@[grind ←]
theorem within_bytes_decode (bytes : List UInt8) (encoding : Value) :
    (bytesDecode bytes encoding).Within limits := by
  unfold bytesDecode
  grind

/-- Every method of bytes. -/
theorem within_bytes_method {bytes : List UInt8} {name : String} {method : Method}
    (h : bytesMethod? bytes name = some method) : method.Within limits := by
  unfold bytesMethod? at h
  split at h
  case h_3 =>
    cases h
    intro items
    grind
  all_goals grind

@[grind ←]
theorem within_bytearray_pop {id : ByteArrayId} (h : limits.objects (.bytearray id)) :
    (bytearrayPop id).Within limits := by
  unfold bytearrayPop
  grind

/-- Every method of a byte array. -/
theorem within_bytearray_method {id : ByteArrayId} {bytes : List UInt8} {name : String}
    {method : Method} (h : bytearrayMethod? id bytes name = some method)
    (hobject : limits.objects (.bytearray id)) : method.Within limits := by
  unfold bytearrayMethod? at h
  split at h
  case h_3 => exact within_bytes_method h
  all_goals grind

@[grind ←]
theorem within_error_with_cause {id : ErrorId} (h : limits.linked id) (cause : Value) :
    (errorWithCause id cause).Within limits := by
  unfold errorWithCause
  have hlink (cause : Option ErrorId) : Within limits do
      setError id fun error => { error with cause := cause, suppressContext := true }
      return Value.error id :=
    within_bind (within_set_cause h cause) fun _ => within_pure _
  split
  · exact within_bind (within_pure _) hlink
  · exact within_bind (within_pure _) hlink
  · exact within_bind (within_raise _ _) hlink

/-- A note goes into the list that the error has for its notes at that moment. -/
theorem within_add_note {id : ErrorId} (h : limits.noted id) (note : String) :
    Within limits do
      setList ((← get).error id).notes (·.push (.str note))
      return Value.null :=
  .of_ok fun heap => ⟨_, _, rfl, .addNote heap h note⟩

/-- Every method of an error. -/
theorem within_error_method {id : ErrorId} {name : String} {method : Method}
    (h : errorMethod? id name = some method) (hnoted : limits.noted id)
    (hlinked : name = "with_cause" → limits.linked id) : method.Within limits := by
  unfold errorMethod? at h
  split at h
  · cases h
    refine Method.within_unary fun note => ?_
    exact within_bind (within_require_text _ note) fun note => within_add_note hnoted note
  · cases h
    exact Method.within_unary (within_error_with_cause (hlinked rfl))
  · cases h

@[grind ←]
theorem within_error_attribute (id : ErrorId) (name : String) :
    (errorAttribute? id name).Within limits := by
  unfold errorAttribute?
  grind

/-- What the method of a value under a name may do: change the value, and, where a text is asked
for, meet an integer with too many digits. -/
structure AllowsMethod (limits : Limits) (receiver : Value) (name : String) : Prop where
  object : limits.objects receiver
  noted {id : ErrorId} : receiver = .error id → limits.noted id
  linked {id : ErrorId} : receiver = .error id → name = "with_cause" → limits.linked id
  sorts {id : ListId} : receiver = .list id → name = "sort" → limits.faults .longInteger
  pops {id : DictId} : receiver = .dict id → name = "pop" → limits.faults .longInteger
  removes {id : SetId} : receiver = .set id → name = "remove" → limits.faults .longInteger

/-- Every method of every built-in value. -/
theorem within_method {heap : Heap} {receiver : Value} {name : String} {method : Method}
    (hlimits : AllowsMethod limits receiver name)
    (h : method? heap receiver name = some method) : method.Within limits := by
  have hobject := hlimits.object
  unfold method? at h
  split at h
  · exact within_text_method h
  · exact within_list_method h hobject (hlimits.sorts rfl)
  · exact within_tuple_method h
  · exact within_dict_method h hobject (hlimits.pops rfl)
  · exact within_set_method h hobject (hlimits.removes rfl)
  · exact within_frozenset_method h
  · exact within_bytearray_method h hobject
  · exact within_bytes_method h
  · exact within_error_method h (hlimits.noted rfl) (hlimits.linked rfl)
  · cases h

/-- Every call of a method, whatever its arguments are. -/
theorem within_call_method {receiver : Value} {name : String}
    (hlimits : AllowsMethod limits receiver name) (items : List Value) :
    (callMethod receiver name items).Within limits := by
  unfold callMethod
  refine within_bind within_get fun heap => ?_
  split
  · grind
  · rename_i method hmethod
    have hrun : (method.run items).Within limits := within_method hlimits hmethod items
    grind

@[grind ←]
theorem within_get_attribute (object : Value) (name : String) :
    (getAttribute object name).Within limits := by
  unfold getAttribute
  grind

/-! ## Functions -/

@[grind ←]
theorem within_make_range (items : List Value) : (makeRange items).Within limits := by
  unfold makeRange
  grind

@[grind ←]
theorem within_make_collection {gather : Value → Action (List Value)}
    {build : List Value → Action Value} (hgather : ∀ value, (gather value).Within limits)
    (hbuild : ∀ items, (build items).Within limits) (name : String) (items : List Value) :
    (makeCollection name gather build items).Within limits := by
  unfold makeCollection
  grind

@[grind ←]
theorem within_dict_of_pairs (dict : Dict) (items : List Value) :
    (dictOfPairs dict items).Within limits := by
  induction items generalizing dict with
  | nil => exact within_pure dict
  | cons item items ih =>
      unfold dictOfPairs
      grind

@[grind ←]
theorem within_make_dict (items : List Value) : (makeDict items).Within limits := by
  unfold makeDict
  grind

@[grind ←]
theorem within_byte_values (name : String) (items : List Value) :
    (byteValues name items).Within limits := by
  unfold byteValues
  grind

@[grind ←]
theorem within_int_text (h : limits.faults .longInteger) (n : Int) :
    (ofFault (Heap.intText n)).Within limits := by
  refine within_of_fault fun fault hfault => ?_
  cases (Heap.int_text_fault hfault).1
  exact Limits.allows_of_faults h

@[grind ←]
theorem within_int_of_text (h : limits.faults .longInteger) (s : String) (base : Int) :
    (intOfText s base).Within limits := by
  unfold intOfText
  grind

@[grind ←]
theorem within_make_int (h : limits.faults .longInteger) (items : List Value) :
    (makeInt items).Within limits := by
  unfold makeInt
  grind

@[grind ←]
theorem within_float_from_int (n : Int) : (floatFromInt n).Within limits := by
  unfold floatFromInt
  grind

@[grind ←]
theorem within_make_float (items : List Value) : (makeFloat items).Within limits := by
  unfold makeFloat
  grind

@[grind ←]
theorem within_complex_part (value : Value) : (complexPart value).Within limits := by
  unfold complexPart
  grind

@[grind ←]
theorem within_make_complex (items : List Value) : (makeComplex items).Within limits := by
  unfold makeComplex
  grind

/-- Every function that only computes. -/
@[grind ←]
theorem within_compute (h : limits.faults .longInteger) (function : BuiltinFunction)
    (items : List Value) : (compute function items).Within limits := by
  unfold compute
  grind

/-! ## Items and thrown values -/

@[grind ←]
theorem within_require_place {length : Action Nat} (h : length.Within limits)
    (collection index : Value) (complaint : String) :
    (requirePlace collection index length complaint).Within limits := by
  unfold requirePlace
  grind

@[grind ←]
theorem within_get_item (h : limits.faults .longInteger) (collection index : Value) :
    (getItem collection index).Within limits := by
  unfold getItem
  grind

@[grind ←]
theorem within_set_item {collection : Value} (h : limits.objects collection)
    (index value : Value) : (setItem collection index value).Within limits := by
  unfold setItem
  grind

@[grind ←]
theorem within_to_error (value : Value) : (toError value).Within limits := by
  unfold toError
  grind

@[grind ←]
theorem within_to_cause (value : Value) : (toCause value).Within limits := by
  unfold toCause
  grind

end Builtin

end Script
