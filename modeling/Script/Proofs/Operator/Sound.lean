import Mathlib.Data.List.Monad
import Script.Operator.Apply
import Script.Proofs.Heap.Sound

/-!
# Operators keep the heap sound

`Action.Keeps` says what an operation gives if it is run on a sound heap and does not fail: a
result as required, and again a sound heap. It is proved here for the parts that operations are
made of and for every operator of the language, given that the operands are sound.
-/

namespace Script

variable [KnownClasses]

namespace Action

variable {α β : Type} {good : α → Prop} {next : β → Prop}

/-- On a sound heap the operation fails, or it gives what is required and leaves a sound heap. -/
def Keeps (good : α → Prop) (action : Action α) : Prop :=
  ∀ heap : Heap, heap.Sound →
    ∀ result after, action heap = .ok (result, after) → good result ∧ after.Sound

/-! ## The parts of an operation -/

theorem keeps_pure {result : α} (h : good result) : Keeps good (pure result : Action α) := by
  rintro heap hheap _ _ ⟨⟩
  exact ⟨h, hheap⟩

theorem Keeps.bind {action : Action α} {rest : α → Action β} (haction : action.Keeps good)
    (hrest : ∀ result, good result → (rest result).Keeps next) : (action >>= rest).Keeps next := by
  intro heap hheap result after hrun
  simp only [Bind.bind, StateT.bind, Except.bind] at hrun
  split at hrun
  · cases hrun
  · rename_i middle hmiddle
    obtain ⟨hgood, hsound⟩ := haction heap hheap _ _ hmiddle
    exact hrest _ hgood _ hsound _ _ hrun

theorem Keeps.mono {action : Action α} {weaker : α → Prop} (haction : action.Keeps good)
    (h : ∀ result, good result → weaker result) : action.Keeps weaker := by
  intro heap hheap result after hrun
  obtain ⟨hgood, hsound⟩ := haction heap hheap result after hrun
  exact ⟨h result hgood, hsound⟩

theorem keeps_get : Keeps Heap.Sound (get : Action Heap) := by
  rintro heap hheap _ _ ⟨⟩
  exact ⟨hheap, hheap⟩

theorem keeps_throw (failure : Failure) : Keeps good (throw failure : Action α) := by
  rintro heap hheap _ _ ⟨⟩

theorem keeps_raise (kind : ErrorKind) (message : String) :
    Keeps good (raise kind message : Action α) :=
  keeps_throw _

theorem keeps_stop (fault : Fault) : Keeps good (stop fault : Action α) :=
  keeps_throw _

/-- Nothing follows an error. -/
theorem keeps_raise_then (kind : ErrorKind) (message : String) {rest : α → Action β} :
    (raise kind message >>= rest).Keeps next :=
  Keeps.bind (keeps_raise kind message : Keeps (fun _ => False) _) fun _ h => h.elim

theorem keeps_stop_then (fault : Fault) {rest : α → Action β} : (stop fault >>= rest).Keeps next :=
  Keeps.bind (keeps_stop fault : Keeps (fun _ => False) _) fun _ h => h.elim

/-- An operation after a test that may refuse it. -/
theorem keeps_unless {test : Bool} {kind : ErrorKind} {message : String} {action : Action α}
    (h : action.Keeps good) :
    (do if test then raise kind message
        action).Keeps good := by
  dsimp only
  split
  · exact keeps_raise_then kind message
  · exact h

/-- Results that are gathered one by one. -/
theorem keeps_map_m {action : β → Action α} {items : List β}
    (h : ∀ item ∈ items, (action item).Keeps good) :
    (items.mapM action).Keeps fun results => ∀ result ∈ results, good result := by
  induction items with
  | nil => exact keeps_pure nofun
  | cons item items ih =>
      rw [List.mapM_cons]
      refine (h item List.mem_cons_self).bind fun result hresult => ?_
      refine (ih fun other hother => h other (List.mem_cons_of_mem _ hother)).bind
        fun results hresults => ?_
      exact keeps_pure (List.forall_mem_cons.mpr ⟨hresult, hresults⟩)

theorem keeps_of_fault (result : Except Fault α) : (ofFault result).Keeps fun _ => True := by
  unfold ofFault
  split
  · exact keeps_pure trivial
  · exact keeps_stop _

theorem keeps_type_name (value : Value) : (typeName value).Keeps fun _ => True :=
  keeps_get.bind fun _ _ => keeps_pure trivial

/-! ## New objects and changed ones -/

theorem keeps_new_mark : newMark.Keeps fun _ => True := by
  rintro heap hheap _ _ ⟨⟩
  exact ⟨trivial, { hheap with }⟩

theorem keeps_new_list {items : Array Value} (h : ItemsSound items) :
    (newList items).Keeps Value.Sound := by
  rintro heap hheap _ _ ⟨⟩
  exact ⟨trivial, hheap.push_list h⟩

theorem keeps_new_dict {dict : Dict} (h : dict.Sound) : (newDict dict).Keeps Value.Sound := by
  rintro heap hheap _ _ ⟨⟩
  exact ⟨trivial, hheap.push_dict h⟩

theorem keeps_new_set {keys : List Value} (h : Keys.Sound keys) :
    (newSet keys).Keeps Value.Sound := by
  rintro heap hheap _ _ ⟨⟩
  exact ⟨trivial, hheap.push_set h⟩

theorem keeps_new_bytearray (bytes : List UInt8) : (newBytearray bytes).Keeps Value.Sound := by
  rintro heap hheap _ _ ⟨⟩
  exact ⟨trivial, { hheap with }⟩

theorem keeps_new_tuple {items : List Value} (h : ∀ item ∈ items, item.Sound) :
    (newTuple items).Keeps Value.Sound :=
  keeps_new_mark.bind fun mark _ => keeps_pure ((Value.sound_tuple_iff mark items).mpr h)

theorem keeps_new_frozenset {keys : List Value} (h : Keys.Sound keys) :
    (newFrozenset keys).Keeps Value.Sound :=
  keeps_new_mark.bind fun mark _ =>
    keeps_pure ((Value.sound_frozenset_iff mark keys).mpr ⟨h.toProper, h.sound⟩)

theorem keeps_new_float (x : Float) : (newFloat x).Keeps Value.Sound := by
  unfold newFloat
  split
  · exact keeps_new_mark.bind fun _ _ => keeps_pure trivial
  · exact keeps_pure trivial

theorem keeps_new_complex (re im : Float) : (newComplex re im).Keeps Value.Sound := by
  unfold newComplex
  split
  · exact keeps_new_mark.bind fun _ _ => keeps_pure trivial
  · exact keeps_pure trivial

theorem keeps_new_instance {contents : Instance} (h : contents.Sound) :
    (newInstance contents).Keeps fun _ => True := by
  rintro heap hheap _ _ ⟨⟩
  exact ⟨trivial, hheap.push_instance h⟩

theorem keeps_new_error (kind : ErrorKind) (arguments : List String) :
    (newError kind arguments).Keeps fun _ => True := by
  rintro heap hheap _ _ ⟨⟩
  exact ⟨trivial, { hheap.push_list .empty with }⟩

theorem keeps_new_function (definition : FunctionDef) :
    (newFunction definition).Keeps fun _ => True := by
  rintro heap hheap _ _ ⟨⟩
  exact ⟨trivial, { hheap with }⟩

theorem keeps_new_class {definition : ClassDef} (h : definition.Sound) :
    (newClass definition).Keeps fun _ => True := by
  rintro heap hheap _ _ ⟨⟩
  exact ⟨trivial, hheap.push_class h⟩

theorem keeps_set_list (id : ListId) {change : Array Value → Array Value}
    (h : ∀ items, ItemsSound items → ItemsSound (change items)) :
    (setList id change).Keeps fun _ => True := by
  rintro heap hheap _ _ ⟨⟩
  exact ⟨trivial, hheap.modify_list id h⟩

theorem keeps_set_dict (id : DictId) {change : Dict → Dict}
    (h : ∀ dict, dict.Sound → (change dict).Sound) : (setDict id change).Keeps fun _ => True := by
  rintro heap hheap _ _ ⟨⟩
  exact ⟨trivial, hheap.modify_dict id h⟩

theorem keeps_set_set (id : SetId) {change : List Value → List Value}
    (h : ∀ keys, Keys.Sound keys → Keys.Sound (change keys)) :
    (setSet id change).Keeps fun _ => True := by
  rintro heap hheap _ _ ⟨⟩
  exact ⟨trivial, hheap.modify_set id h⟩

theorem keeps_set_bytearray (id : ByteArrayId) (change : List UInt8 → List UInt8) :
    (setBytearray id change).Keeps fun _ => True := by
  rintro heap hheap _ _ ⟨⟩
  exact ⟨trivial, { hheap with }⟩

theorem keeps_set_error (id : ErrorId) (change : ErrorObject → ErrorObject) :
    (setError id change).Keeps fun _ => True := by
  rintro heap hheap _ _ ⟨⟩
  exact ⟨trivial, { hheap with }⟩

theorem keeps_set_field (id : InstanceId) (name : String) {value : Value} (h : value.Sound) :
    (setField id name value).Keeps fun _ => True := by
  rintro heap hheap _ _ ⟨⟩
  exact ⟨trivial, hheap.modify_instance id fun contents hcontents =>
    Table.Sound.insert hcontents name h⟩

/-! ## Texts, truth, equality and keys -/

theorem keeps_ensure_hashable (value : Value) :
    (ensureHashable value).Keeps fun _ => value.isHashable = true := by
  unfold ensureHashable
  split
  · exact (keeps_type_name value).bind fun _ _ => keeps_raise _ _
  · rename_i h
    exact keeps_pure (by simpa using h)

/-- All the values have been checked. -/
theorem keeps_ensure_all_hashable (items : List Value) :
    (items.forM ensureHashable).Keeps fun _ => ∀ item ∈ items, item.isHashable = true := by
  induction items with
  | nil => exact keeps_pure nofun
  | cons item items ih =>
      refine (keeps_ensure_hashable item).bind fun _ hitem => ?_
      exact ih.mono fun _ hitems => List.forall_mem_cons.mpr ⟨hitem, hitems⟩

theorem keeps_display (value : Value) : (display value).Keeps fun _ => True :=
  keeps_get.bind fun _ _ => keeps_of_fault _

theorem keeps_is_truthy (value : Value) : (isTruthy value).Keeps fun _ => True := by
  unfold isTruthy
  exact keeps_get.bind fun _ _ => keeps_of_fault _

theorem keeps_equal (a b : Value) : (equal a b).Keeps fun _ => True :=
  keeps_get.bind fun _ _ => keeps_of_fault _

theorem keeps_same_or_equal (a b : Value) : (sameOrEqual a b).Keeps fun _ => True :=
  keeps_get.bind fun _ _ => keeps_of_fault _

end Action

open Script.Action

/-! ## Arithmetic -/

namespace Arithmetic

theorem keeps_float_of_int (n : Int) : (floatOfInt n).Keeps fun _ => True := by
  unfold floatOfInt
  split
  · exact keeps_pure trivial
  · exact keeps_stop _

theorem keeps_to_complex (n : Number.Numeric) : (toComplex n).Keeps fun _ => True := by
  cases n with
  | int n => exact (keeps_float_of_int n).bind fun _ _ => keeps_pure trivial
  | float x => exact keeps_pure trivial
  | complex re im => exact keeps_pure trivial

/-- An operator on numbers, if it does so on each sort of number. -/
theorem keeps_promote {onInts : Int → Int → Action Value} {onFloats : Float → Float → Action Value}
    {onComplex : Number.Complex → Number.Complex → Action Value}
    (hints : ∀ a b, (onInts a b).Keeps Value.Sound)
    (hfloats : ∀ x y, (onFloats x y).Keeps Value.Sound)
    (hcomplex : ∀ a b, (onComplex a b).Keeps Value.Sound) (a b : Number.Numeric) :
    (promote onInts onFloats onComplex a b).Keeps Value.Sound := by
  unfold promote
  split
  · exact hints _ _
  · exact (keeps_float_of_int _).bind fun _ _ => hfloats _ _
  · exact (keeps_float_of_int _).bind fun _ _ => hfloats _ _
  · exact hfloats _ _
  · exact (keeps_to_complex _).bind fun _ _ => (keeps_to_complex _).bind fun _ _ => hcomplex _ _

theorem keeps_complex_result (z : Number.Complex) : (complexResult z).Keeps Value.Sound :=
  keeps_new_complex _ _

/-- An operator that gives an integer for integers and a double for doubles. -/
theorem keeps_promote_same (onInts : Int → Int → Int) (onFloats : Float → Float → Float)
    (onComplex : Number.Complex → Number.Complex → Number.Complex) (a b : Number.Numeric) :
    (promote (fun a b => pure (.int (onInts a b))) (fun x y => newFloat (onFloats x y))
      (fun a b => complexResult (onComplex a b)) a b).Keeps Value.Sound := by
  refine keeps_promote ?_ ?_ ?_ a b
  · exact fun _ _ => keeps_pure trivial
  · exact fun _ _ => keeps_new_float _
  · exact fun _ _ => keeps_complex_result _

theorem keeps_add (a b : Number.Numeric) : (add a b).Keeps Value.Sound :=
  keeps_promote_same _ _ _ a b

theorem keeps_subtract (a b : Number.Numeric) : (subtract a b).Keeps Value.Sound :=
  keeps_promote_same _ _ _ a b

theorem keeps_multiply (a b : Number.Numeric) : (multiply a b).Keeps Value.Sound :=
  keeps_promote_same _ _ _ a b

theorem keeps_divide (a b : Number.Numeric) : (divide a b).Keeps Value.Sound := by
  refine keeps_unless (keeps_promote ?_ ?_ ?_ a b)
  · intro a b
    split
    · exact keeps_new_float _
    · exact keeps_stop _
  · exact fun _ _ => keeps_new_float _
  · intro a b
    split
    · exact keeps_complex_result _
    · exact keeps_raise _ _

theorem keeps_floor_divide (a b : Number.Numeric) : (floorDivide a b).Keeps Value.Sound :=
  keeps_unless (keeps_promote_same _ _ (fun a _ => a) a b)

theorem keeps_remainder (a b : Number.Numeric) : (remainder a b).Keeps Value.Sound :=
  keeps_unless (keeps_promote_same _ _ (fun a _ => a) a b)

theorem keeps_complex_power (base exponent : Number.Complex) :
    (complexPower base exponent).Keeps Value.Sound := by
  unfold complexPower
  split
  · exact keeps_complex_result _
  · exact keeps_stop _
  · exact keeps_stop _

theorem keeps_float_power (base exponent : Float) :
    (floatPower base exponent).Keeps Value.Sound := by
  refine keeps_unless ?_
  split
  · exact keeps_pure trivial
  · split
    · exact keeps_new_float _
    · exact keeps_stop _

theorem keeps_power (a b : Number.Numeric) : (power a b).Keeps Value.Sound := by
  refine keeps_promote (fun a b => ?_) keeps_float_power keeps_complex_power a b
  refine (keeps_float_of_int a).bind fun base _ => ?_
  exact (keeps_float_of_int b).bind fun exponent _ => keeps_float_power base exponent

theorem keeps_shift_left (n : Int) (places : Nat) : (shiftLeft n places).Keeps Value.Sound := by
  unfold shiftLeft
  split
  · exact keeps_pure trivial
  · split
    · exact keeps_stop _
    · split
      · exact keeps_stop _
      · exact keeps_pure trivial

end Arithmetic

/-! ## Operators -/

namespace Operand

variable {α : Type} {good : α → Prop} {left right : Value}

theorem keeps_unsupported (symbol : String) (left right : Value) :
    (unsupported symbol left right : Action α).Keeps good := by
  refine (keeps_type_name left).bind fun _ _ => ?_
  exact (keeps_type_name right).bind fun _ _ => keeps_raise _ _

/-- What is repeated is what was there. -/
theorem keeps_repeat_items (items : List α) (times : Nat) (tooLong : Fault) :
    (repeatItems items times tooLong).Keeps fun repeated => ∀ item ∈ repeated, item ∈ items := by
  unfold repeatItems
  dsimp only
  split
  · exact keeps_pure nofun
  · split
    · exact keeps_stop _
    · split
      · exact keeps_stop _
      · refine keeps_pure fun item hitem => ?_
        obtain ⟨part, hpart, hmem⟩ := List.mem_flatten.mp hitem
        exact List.eq_of_mem_replicate hpart ▸ hmem

theorem keeps_repeated {sequence : Value} (h : sequence.Sound) (times : Int) :
    (repeated sequence times).Keeps Value.Sound := by
  unfold repeated
  dsimp only
  split
  · exact keeps_raise_then _ _
  · split
    · exact keeps_stop_then _
    · split
      · exact (keeps_repeat_items _ _ _).bind fun _ _ => keeps_pure trivial
      · exact (keeps_repeat_items _ _ _).bind fun _ _ => keeps_pure trivial
      · refine keeps_get.bind fun heap _ => ?_
        exact (keeps_repeat_items _ _ _).bind fun _ _ => keeps_new_bytearray _
      · rename_i id
        refine keeps_get.bind fun heap hheap => ?_
        refine (keeps_repeat_items _ _ _).bind fun items hitems => keeps_new_list (.of_list ?_)
        exact fun item hitem => hheap.list id item (Array.mem_toList_iff.mp (hitems item hitem))
      · rename_i mark items
        split
        · exact keeps_pure h
        · refine (keeps_repeat_items _ _ _).bind fun repeated hrepeated => keeps_new_tuple ?_
          rw [Value.sound_tuple_iff] at h
          exact fun item hitem => h item (hrepeated item hitem)
      · exact keeps_unsupported _ _ _

theorem keeps_add (hleft : left.Sound) (hright : right.Sound) :
    (add left right).Keeps Value.Sound := by
  unfold add
  split
  · exact Arithmetic.keeps_add _ _
  · refine keeps_get.bind fun heap hheap => ?_
    split
    · exact keeps_pure trivial
    · exact keeps_pure trivial
    · exact keeps_pure trivial
    · rename_i a b _
      exact keeps_new_list ((hheap.list a).append (hheap.list b))
    · rename_i a b _
      split
      · exact keeps_pure hright
      · split
        · exact keeps_pure hleft
        · rw [Value.sound_tuple_iff] at hleft hright
          exact keeps_new_tuple (List.forall_mem_append.mpr ⟨hleft, hright⟩)
    · split
      · exact keeps_pure trivial
      · exact keeps_unsupported _ _ _
    · split
      · exact keeps_new_bytearray _
      · exact keeps_unsupported _ _ _
    · exact keeps_unsupported _ _ _

theorem keeps_like_set (model : Value) {keys : List Value} (h : Keys.Sound keys) :
    (likeSet model keys).Keeps Value.Sound := by
  unfold likeSet
  split
  · exact keeps_new_set h
  · exact keeps_new_frozenset h

/-- The members of a set or frozen set. -/
theorem sound_members {heap : Heap} (hheap : heap.Sound) {value : Value} (hvalue : value.Sound)
    {keys : List Value} (h : heap.members? value = some keys) : Keys.Sound keys := by
  unfold Heap.members? at h
  split at h
  · cases h
    exact hheap.set _
  · cases h
    obtain ⟨hproper, hkeys⟩ := (Value.sound_frozenset_iff _ _).mp hvalue
    exact ⟨hproper, hkeys⟩
  · cases h

theorem keeps_on_sets (symbol : String) {combine : List Value → List Value → List Value}
    (hcombine : ∀ keys others, Keys.Sound keys → Keys.Sound others →
      Keys.Sound (combine keys others))
    (hleft : left.Sound) (hright : right.Sound) :
    (onSets symbol combine left right).Keeps Value.Sound := by
  refine keeps_get.bind fun heap hheap => ?_
  split
  · rename_i keys others hkeys hothers
    refine keeps_like_set left (hcombine keys others ?_ ?_)
    · exact sound_members hheap hleft hkeys
    · exact sound_members hheap hright hothers
  · exact keeps_unsupported _ _ _

theorem keeps_subtract (hleft : left.Sound) (hright : right.Sound) :
    (subtract left right).Keeps Value.Sound := by
  unfold subtract
  split
  · exact Arithmetic.keeps_subtract _ _
  · exact keeps_on_sets _ (fun keys others hkeys _ => hkeys.diff others) hleft hright

theorem keeps_multiply (hleft : left.Sound) (hright : right.Sound) :
    (multiply left right).Keeps Value.Sound := by
  unfold multiply
  split
  · exact Arithmetic.keeps_multiply _ _
  · split
    · split
      · exact keeps_repeated hright _
      · exact keeps_unsupported _ _ _
    · split
      · exact keeps_repeated hleft _
      · exact keeps_unsupported _ _ _
    · exact keeps_unsupported _ _ _

theorem keeps_on_numbers (symbol : String)
    {operation : Number.Numeric → Number.Numeric → Action Value}
    (h : ∀ a b, (operation a b).Keeps Value.Sound) (left right : Value) :
    (onNumbers symbol operation left right).Keeps Value.Sound := by
  unfold onNumbers
  split
  · exact h _ _
  · exact keeps_unsupported _ _ _

theorem keeps_on_reals (symbol : String)
    {operation : Number.Numeric → Number.Numeric → Action Value}
    (h : ∀ a b, (operation a b).Keeps Value.Sound) (left right : Value) :
    (onReals symbol operation left right).Keeps Value.Sound := by
  unfold onReals
  split
  · exact keeps_on_numbers symbol h left right
  · exact keeps_unsupported _ _ _

theorem keeps_bitwise (symbol : String) (onInts : Int → Int → Int)
    {combine : List Value → List Value → List Value}
    (hcombine : ∀ keys others, Keys.Sound keys → Keys.Sound others →
      Keys.Sound (combine keys others))
    (hleft : left.Sound) (hright : right.Sound) :
    (bitwise symbol onInts combine left right).Keeps Value.Sound := by
  unfold bitwise
  split
  · exact keeps_pure trivial
  · exact keeps_on_sets symbol hcombine hleft hright

theorem keeps_shift (symbol : String) {move : Int → Nat → Action Value}
    (h : ∀ n places, (move n places).Keeps Value.Sound) (left right : Value) :
    (shift symbol move left right).Keeps Value.Sound := by
  unfold shift
  split
  · split
    · exact keeps_raise_then _ _
    · exact h _ _
  · exact keeps_unsupported _ _ _

theorem keeps_ordering (comparison : Heap.Comparison) (left right : Value) :
    (ordering comparison left right).Keeps Value.Sound := by
  refine keeps_get.bind fun heap _ => ?_
  split
  · exact keeps_pure trivial
  · exact keeps_throw _

theorem keeps_any_equal (value : Value) (items : List Value) :
    (anyEqual value items).Keeps fun _ => True := by
  induction items with
  | nil => exact keeps_pure trivial
  | cons item items ih =>
      refine (keeps_same_or_equal item value).bind fun same _ => ?_
      split
      · exact keeps_pure trivial
      · exact ih

theorem keeps_bytes_contain (bytes : List UInt8) (item : Value) :
    (bytesContain bytes item).Keeps fun _ => True := by
  unfold bytesContain
  split
  · exact keeps_unless (keeps_pure trivial)
  · refine keeps_get.bind fun heap _ => ?_
    split
    · exact keeps_pure trivial
    · exact keeps_raise _ _

theorem keeps_contains (container item : Value) :
    (contains container item).Keeps fun _ => True := by
  refine keeps_get.bind fun heap _ => ?_
  split
  · split
    · exact keeps_pure trivial
    · exact keeps_raise _ _
  · exact keeps_any_equal _ _
  · exact keeps_any_equal _ _
  · exact (keeps_ensure_hashable item).bind fun _ _ => keeps_pure trivial
  · exact (keeps_ensure_hashable item).bind fun _ _ => keeps_pure trivial
  · exact (keeps_ensure_hashable item).bind fun _ _ => keeps_pure trivial
  · exact keeps_bytes_contain _ _
  · exact keeps_bytes_contain _ _
  · exact keeps_pure trivial
  · exact (keeps_type_name container).bind fun _ _ => keeps_raise _ _

theorem keeps_is_same (left right : Value) : (isSame left right).Keeps fun _ => True :=
  keeps_get.bind fun _ _ => keeps_of_fault _

end Operand

theorem BinaryOperator.keeps_operation (operator : BinaryOperator) {left right : Value}
    (hleft : left.Sound) (hright : right.Sound) :
    (operator.operation left right).Keeps Value.Sound := by
  cases operator with
  | or =>
      refine (keeps_is_truthy left).bind fun holds _ => ?_
      split
      · exact keeps_pure trivial
      · exact (keeps_is_truthy right).bind fun _ _ => keeps_pure trivial
  | and =>
      refine (keeps_is_truthy left).bind fun holds _ => ?_
      split
      · exact (keeps_is_truthy right).bind fun _ _ => keeps_pure trivial
      · exact keeps_pure trivial
  | equal | notEqual => exact (keeps_equal left right).bind fun _ _ => keeps_pure trivial
  | less | greater | lessEqual | greaterEqual => exact Operand.keeps_ordering _ left right
  | is | isNot => exact (Operand.keeps_is_same left right).bind fun _ _ => keeps_pure trivial
  | within | notWithin =>
      exact (Operand.keeps_contains right left).bind fun _ _ => keeps_pure trivial
  | bitOr =>
      exact Operand.keeps_bitwise _ _ (fun keys others hkeys hothers =>
        hkeys.insert_all hothers.fit) hleft hright
  | bitXor =>
      exact Operand.keeps_bitwise _ _ (fun keys others hkeys hothers =>
        hkeys.symm_diff hothers) hleft hright
  | bitAnd =>
      exact Operand.keeps_bitwise _ _ (fun keys others hkeys hothers =>
        hkeys.shared hothers) hleft hright
  | shiftLeft => exact Operand.keeps_shift _ Arithmetic.keeps_shift_left left right
  | shiftRight =>
      have hmove (n : Int) (places : Nat) :
          (pure (.int (Number.shiftRight n places)) : Action Value).Keeps Value.Sound :=
        keeps_pure trivial
      exact Operand.keeps_shift _ hmove left right
  | add => exact Operand.keeps_add hleft hright
  | subtract => exact Operand.keeps_subtract hleft hright
  | multiply => exact Operand.keeps_multiply hleft hright
  | divide => exact Operand.keeps_on_numbers _ Arithmetic.keeps_divide left right
  | remainder => exact Operand.keeps_on_reals _ Arithmetic.keeps_remainder left right
  | floorDivide => exact Operand.keeps_on_reals _ Arithmetic.keeps_floor_divide left right
  | power => exact Operand.keeps_on_numbers _ Arithmetic.keeps_power left right

theorem BinaryOperator.keeps_apply (operator : BinaryOperator) {left right : Value}
    (hleft : left.Sound) (hright : right.Sound) :
    (operator.apply left right).Keeps Value.Sound := by
  intro heap hheap result after hrun
  unfold apply at hrun
  split at hrun
  · cases hrun
  · exact operator.keeps_operation hleft hright heap hheap result after hrun

theorem UnaryOperator.keeps_apply (operator : UnaryOperator) (value : Value) :
    (operator.apply value).Keeps Value.Sound := by
  unfold apply
  split
  · exact (keeps_is_truthy value).bind fun _ _ => keeps_pure trivial
  · split
    · exact keeps_pure trivial
    · exact keeps_new_float _
    · exact keeps_new_complex _ _
    · exact (keeps_type_name value).bind fun _ _ => keeps_raise _ _
  · split
    · exact keeps_pure trivial
    · exact (keeps_type_name value).bind fun _ _ => keeps_raise _ _

end Script
