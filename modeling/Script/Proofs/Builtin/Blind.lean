import Script.Proofs.Builtin.Limits
import Script.Proofs.Heap.Room

/-!
# Built-in operations do not look into functions

Of the functions that a program has defined, built-in operations see no more than the names, and of
the limit on the depth of calls no more than the room that it leaves for nested values. If the
functions are replaced by others with the same names, and the limit by a higher one, every operator,
method and function does the same as before and leaves functions and limit alone, unless it has met
a value that is nested too deeply. `Action.Blind` says so of an operation.
-/

namespace Script

namespace Heap

/-- The heap with other functions and another limit on the depth of calls. -/
def recast (heap : Heap) (functions : Store FunctionDef) (limit : Nat) : Heap :=
  { heap with functions := functions, maxDepth := limit }

/-- The functions have the names of those in the heap, and the limit is not lower. -/
structure Recasts (heap : Heap) (functions : Store FunctionDef) (limit : Nat) : Prop where
  names : ∀ id, (functions.get id).name = (heap.function id).name
  limit : heap.maxDepth ≤ limit

/-- The heap as it is. -/
theorem Recasts.refl (heap : Heap) : heap.Recasts heap.functions heap.maxDepth :=
  ⟨fun _ => rfl, Nat.le_refl _⟩

/-- What is asked of the heap has the same answer after the change, unless the limit was met. -/
def Steady {ε α : Type} (deep : ε) (question : Heap → Except ε α) : Prop :=
  ∀ heap functions limit, heap.Recasts functions limit →
    question (heap.recast functions limit) = question heap ∨
      heap.maxDepth < limit ∧ question heap = .error deep

variable {heap : Heap} {functions : Store FunctionDef} {limit : Nat}

/-- What is asked within a depth has the same answer within a greater one. -/
theorem steady_within {ε α : Type} {deep : ε} (within : Heap → Nat → Except ε α)
    (hsame : ∀ heap functions limit, heap.Recasts functions limit →
      within (heap.recast functions limit) = within heap)
    (hdeepens : ∀ heap depth more, depth ≤ more →
      Deepens deep (within heap depth) (within heap more)) :
    Steady deep fun heap => within heap heap.nestingLimit := by
  intro heap functions limit h
  dsimp only
  rw [hsame heap functions limit h]
  obtain heq | hlt := Nat.eq_or_lt_of_le h.limit
  · subst heq
    exact .inl rfl
  · have hroom : heap.nestingLimit ≤ (heap.recast functions limit).nestingLimit :=
      Nat.div_le_div_right (frames_for_mono h.limit)
    exact (hdeepens heap _ _ hroom).symm.imp_right fun hdeep => ⟨hlt, hdeep⟩

theorem equal_within_recast (depth : Nat) :
    (heap.recast functions limit).equalWithin depth = heap.equalWithin depth := by
  induction depth with
  | zero => rfl
  | succ depth ih =>
      funext a b
      unfold equalWithin
      rw [ih]
      rfl

theorem ordered_within_recast (comparison : Comparison) (depth : Nat) :
    (heap.recast functions limit).orderedWithin comparison depth =
      heap.orderedWithin comparison depth := by
  induction depth with
  | zero => rfl
  | succ depth ih =>
      funext a b
      unfold orderedWithin
      rw [ih, equal_within_recast]
      rfl

/-- Only the name of a function is shown. -/
theorem display_within_recast (h : heap.Recasts functions limit) (depth : Nat) :
    (heap.recast functions limit).displayWithin depth = heap.displayWithin depth := by
  induction depth with
  | zero => rfl
  | succ depth ih =>
      funext value
      have hname (id : FunctionId) :
          ((heap.recast functions limit).function id).name = (heap.function id).name := h.names id
      unfold displayWithin
      rw [ih]
      cases value with
      | function id => simp only [hname]
      | boundMethod mark receiver id =>
          simp only [hname]
          rfl
      | _ => rfl

theorem steady_display (value : Value) : Steady .recursion (·.display value) :=
  steady_within (fun heap depth => heap.displayWithin depth value)
    (fun _ _ _ h => funext fun depth => congrFun (display_within_recast h depth) value)
    fun _ _ _ hle => display_within_deepens hle value

theorem steady_equal (a b : Value) : Steady .recursion (·.equal a b) :=
  steady_within (fun heap depth => heap.equalWithin depth a b)
    (fun _ _ _ _ => funext fun depth => congrFun (congrFun (equal_within_recast depth) a) b)
    fun _ _ _ hle => equal_within_deepens hle a b

/-- What is asked in one of two ways, which depends neither on the functions nor on the limit. -/
theorem steady_ite {ε α : Type} {deep : ε} {condition : Heap → Bool}
    {yes no : Heap → Except ε α}
    (hcondition : ∀ heap functions limit,
      condition (Heap.recast heap functions limit) = condition heap)
    (hyes : Steady deep yes) (hno : Steady deep no) :
    Steady deep fun heap => if condition heap then yes heap else no heap := by
  intro heap functions limit h
  dsimp only
  rw [hcondition]
  split
  · exact hyes heap functions limit h
  · exact hno heap functions limit h

theorem steady_const {ε α : Type} (deep : ε) (answer : Except ε α) :
    Steady deep fun _ => answer :=
  fun _ _ _ _ => .inl rfl

theorem steady_same_or_equal (a b : Value) : Steady .recursion (·.sameOrEqual a b) :=
  steady_ite (fun _ _ _ => rfl) (steady_const _ _) (steady_equal a b)

theorem steady_same (a b : Value) : Steady .recursion (·.same a b) :=
  steady_ite (fun _ _ _ => rfl) (steady_const _ _)
    (steady_ite (fun _ _ _ => rfl) (steady_equal a b) (steady_const _ _))

theorem steady_ordered (comparison : Comparison) (a b : Value) :
    Steady (.fault .recursion) (·.ordered comparison a b) := by
  refine steady_ite (fun _ _ _ => rfl) ?_ fun _ _ _ _ => .inl rfl
  exact steady_within (fun heap depth => heap.orderedWithin comparison depth a b)
    (fun _ _ _ _ => funext fun depth =>
      congrFun (congrFun (ordered_within_recast comparison depth) a) b)
    fun _ _ _ hle => ordered_within_deepens comparison hle a b

end Heap

namespace Action

variable {α β : Type}

/-- After the change of the heap the operation does the same, and it leaves functions and limit
alone, unless it has met the limit. -/
def Blind (action : Action α) : Prop :=
  ∀ heap functions limit, heap.Recasts functions limit →
    action (heap.recast functions limit) =
        (action heap).map (fun outcome => (outcome.1, outcome.2.recast functions limit)) ∨
      heap.maxDepth < limit ∧ action heap = .error (.fault .recursion)

/-- The functions and the limit are left alone. -/
theorem Blind.keeps {action : Action α} (h : action.Blind) {heap after : Heap} {result : α}
    (hrun : action heap = .ok (result, after)) :
    after.functions = heap.functions ∧ after.maxDepth = heap.maxDepth := by
  obtain hself | ⟨hlt, -⟩ := h heap _ _ (.refl heap)
  · rw [show heap.recast heap.functions heap.maxDepth = heap from rfl, hrun] at hself
    have hafter : after = after.recast heap.functions heap.maxDepth :=
      (Prod.mk.inj (Except.ok.inj hself)).2
    rw [hafter]
    exact ⟨rfl, rfl⟩
  · exact (Nat.lt_irrefl _ hlt).elim

/-- What can be done to a heap can be done to what an operation leaves. -/
theorem Blind.recasts {action : Action α} (h : action.Blind) {heap after : Heap} {result : α}
    {functions : Store FunctionDef} {limit : Nat} (hrecasts : heap.Recasts functions limit)
    (hrun : action heap = .ok (result, after)) : after.Recasts functions limit := by
  obtain ⟨hfunctions, hlimit⟩ := h.keeps hrun
  refine ⟨fun id => ?_, hlimit ▸ hrecasts.limit⟩
  rw [hrecasts.names id, Heap.function, Heap.function, hfunctions]

/-!
## The parts of an operation

From here on each lemma is a rule that follows the code of one operation; the rules for what it is
made of stand before it.
-/

@[grind ←]
theorem blind_pure (result : α) : (pure result : Action α).Blind :=
  fun _ _ _ _ => .inl rfl

@[grind ←]
theorem blind_bind {action : Action α} {next : α → Action β} (haction : action.Blind)
    (hnext : ∀ result, (next result).Blind) : (action >>= next).Blind := by
  intro heap functions limit hrecasts
  have hfirst := haction heap functions limit hrecasts
  simp only [bind, StateT.bind, Except.bind] at hfirst ⊢
  obtain hfirst | ⟨hlt, hdeep⟩ := hfirst
  · rw [hfirst]
    rcases hrun : action heap with failure | ⟨result, after⟩
    · exact .inl rfl
    · have hlimit := (haction.keeps hrun).2
      exact hlimit ▸ hnext result after functions limit (haction.recasts hrecasts hrun)
  · rw [hdeep]
    exact .inr ⟨hlt, rfl⟩

/-- A check before the rest of an operation. -/
theorem blind_guard {condition : Prop} [Decidable condition] {failure : Action PUnit}
    {rest : Action β} (hfailure : failure.Blind) (hrest : rest.Blind) :
    (if condition then failure >>= fun _ => rest else rest).Blind := by
  grind

/-- What reads the heap, but nothing of the functions and the limit. -/
theorem blind_read {next : Heap → Action β}
    (hsame : ∀ heap functions limit, next (Heap.recast heap functions limit) = next heap)
    (hnext : ∀ heap, (next heap).Blind) : (get >>= next : Action β).Blind := by
  intro heap functions limit hrecasts
  have hother : (get >>= next) (heap.recast functions limit) =
      next heap (heap.recast functions limit) :=
    congrFun (hsame heap functions limit) _
  rw [hother]
  exact hnext heap heap functions limit hrecasts

/-- What asks a steady question of the heap. -/
theorem blind_question {question : Heap → Except Failure α} (finish : α → β) {action : Action β}
    (h : Heap.Steady (.fault .recursion) question)
    (haction : ∀ heap, action heap = (question heap).map (finish ·, heap)) : action.Blind := by
  intro heap functions limit hrecasts
  rw [haction, haction]
  obtain hsame | ⟨hlt, hdeep⟩ := h heap functions limit hrecasts
  · rw [hsame]
    cases question heap <;> exact .inl rfl
  · rw [hdeep]
    exact .inr ⟨hlt, rfl⟩

theorem blind_ask {question : Heap → Except Fault α} (h : Heap.Steady .recursion question) :
    (do ofFault (question (← get)) : Action α).Blind := by
  have hlifted : Heap.Steady (.fault .recursion) fun heap => Heap.liftFault (question heap) := by
    intro heap functions limit hrecasts
    obtain hsame | ⟨hlt, hdeep⟩ := h heap functions limit hrecasts
    · exact .inl (congrArg Heap.liftFault hsame)
    · exact .inr ⟨hlt, congrArg Heap.liftFault hdeep⟩
  refine blind_question id hlifted fun heap => ?_
  show ofFault (question heap) heap = _
  cases question heap <;> rfl

@[grind ←]
theorem blind_raise (kind : ErrorKind) (message : String) :
    (raise kind message : Action α).Blind :=
  fun _ _ _ _ => .inl rfl

@[grind ←]
theorem blind_stop (fault : Fault) : (stop fault : Action α).Blind :=
  fun _ _ _ _ => .inl rfl

@[grind ←]
theorem blind_map_m {action : α → Action β} (h : ∀ item, (action item).Blind) (items : List α) :
    (items.mapM action).Blind := by
  induction items with
  | nil => exact blind_pure []
  | cons item items ih =>
      rw [List.mapM_cons]
      grind

@[grind ←]
theorem blind_for_m {action : α → Action PUnit} (h : ∀ item, (action item).Blind)
    (items : List α) : (items.forM action).Blind := by
  induction items with
  | nil => exact blind_pure _
  | cons item items ih =>
      show (action item >>= fun _ => items.forM action).Blind
      exact blind_bind (h item) fun _ => ih

@[grind ←]
theorem blind_of_fault (result : Except Fault α) : (ofFault result).Blind := by
  unfold ofFault
  grind

@[grind ←]
theorem blind_type_name (value : Value) : (typeName value).Blind :=
  blind_read (fun _ _ _ => rfl) fun _ => blind_pure _

/-! ## New objects and changed ones -/

@[grind ←]
theorem blind_new_mark : newMark.Blind :=
  fun _ _ _ _ => .inl rfl

@[grind ←]
theorem blind_new_list (items : Array Value) : (newList items).Blind :=
  fun _ _ _ _ => .inl rfl

@[grind ←]
theorem blind_new_dict (dict : Dict) : (newDict dict).Blind :=
  fun _ _ _ _ => .inl rfl

@[grind ←]
theorem blind_new_set (keys : List Value) : (newSet keys).Blind :=
  fun _ _ _ _ => .inl rfl

@[grind ←]
theorem blind_new_bytearray (bytes : List UInt8) : (newBytearray bytes).Blind :=
  fun _ _ _ _ => .inl rfl

@[grind ←]
theorem blind_new_error (kind : ErrorKind) (arguments : List String) :
    (newError kind arguments).Blind :=
  fun _ _ _ _ => .inl rfl

@[grind ←]
theorem blind_new_instance (contents : Instance) : (newInstance contents).Blind :=
  fun _ _ _ _ => .inl rfl

@[grind ←]
theorem blind_new_class (definition : ClassDef) : (newClass definition).Blind :=
  fun _ _ _ _ => .inl rfl

@[grind ←]
theorem blind_new_tuple (items : List Value) : (newTuple items).Blind := by
  unfold newTuple
  grind

@[grind ←]
theorem blind_new_frozenset (keys : List Value) : (newFrozenset keys).Blind := by
  unfold newFrozenset
  grind

@[grind ←]
theorem blind_new_float (x : Float) : (newFloat x).Blind := by
  unfold newFloat
  grind

@[grind ←]
theorem blind_new_complex (re im : Float) : (newComplex re im).Blind := by
  unfold newComplex
  grind

@[grind ←]
theorem blind_set_list (id : ListId) (change : Array Value → Array Value) :
    (setList id change).Blind :=
  fun _ _ _ _ => .inl rfl

@[grind ←]
theorem blind_set_dict (id : DictId) (change : Dict → Dict) : (setDict id change).Blind :=
  fun _ _ _ _ => .inl rfl

@[grind ←]
theorem blind_set_set (id : SetId) (change : List Value → List Value) : (setSet id change).Blind :=
  fun _ _ _ _ => .inl rfl

@[grind ←]
theorem blind_set_bytearray (id : ByteArrayId) (change : List UInt8 → List UInt8) :
    (setBytearray id change).Blind :=
  fun _ _ _ _ => .inl rfl

@[grind ←]
theorem blind_set_error (id : ErrorId) (change : ErrorObject → ErrorObject) :
    (setError id change).Blind :=
  fun _ _ _ _ => .inl rfl

@[grind ←]
theorem blind_set_field (id : InstanceId) (name : String) (value : Value) :
    (setField id name value).Blind :=
  fun _ _ _ _ => .inl rfl

/-! ## Texts, truth, equality and keys -/

@[grind ←]
theorem blind_ensure_hashable (value : Value) : (ensureHashable value).Blind := by
  unfold ensureHashable
  grind

@[grind ←]
theorem blind_display (value : Value) : (display value).Blind :=
  blind_ask (Heap.steady_display value)

@[grind ←]
theorem blind_is_truthy (value : Value) : (isTruthy value).Blind :=
  blind_read (fun _ _ _ => rfl) fun _ => blind_of_fault _

@[grind ←]
theorem blind_equal (a b : Value) : (equal a b).Blind :=
  blind_ask (Heap.steady_equal a b)

@[grind ←]
theorem blind_same_or_equal (a b : Value) : (sameOrEqual a b).Blind :=
  blind_ask (Heap.steady_same_or_equal a b)

end Action

open Script.Action

/-! ## Arithmetic -/

namespace Arithmetic

variable {α : Type}

@[grind ←]
theorem blind_float_of_int (n : Int) : (floatOfInt n).Blind := by
  unfold floatOfInt
  grind

@[grind ←]
theorem blind_to_complex (n : Number.Numeric) : (toComplex n).Blind := by
  unfold toComplex
  grind

/-- An operator on numbers is blind if it is on each sort of number. -/
@[grind ←]
theorem blind_promote {onInts : Int → Int → Action Value} {onFloats : Float → Float → Action Value}
    {onComplex : Number.Complex → Number.Complex → Action Value}
    (hints : ∀ a b, (onInts a b).Blind) (hfloats : ∀ x y, (onFloats x y).Blind)
    (hcomplex : ∀ a b, (onComplex a b).Blind) (a b : Number.Numeric) :
    (promote onInts onFloats onComplex a b).Blind := by
  unfold promote
  grind

@[grind ←]
theorem blind_complex_result (z : Number.Complex) : (complexResult z).Blind := by
  unfold complexResult
  grind

@[grind ←]
theorem blind_add (a b : Number.Numeric) : (add a b).Blind := by
  unfold add
  grind

@[grind ←]
theorem blind_subtract (a b : Number.Numeric) : (subtract a b).Blind := by
  unfold subtract
  grind

@[grind ←]
theorem blind_multiply (a b : Number.Numeric) : (multiply a b).Blind := by
  unfold multiply
  grind

@[grind ←]
theorem blind_divide (a b : Number.Numeric) : (divide a b).Blind := by
  unfold divide
  grind

@[grind ←]
theorem blind_floor_divide (a b : Number.Numeric) : (floorDivide a b).Blind := by
  unfold floorDivide
  grind

@[grind ←]
theorem blind_remainder (a b : Number.Numeric) : (remainder a b).Blind := by
  unfold remainder
  grind

@[grind ←]
theorem blind_complex_power (base exponent : Number.Complex) :
    (complexPower base exponent).Blind := by
  unfold complexPower
  grind

@[grind ←]
theorem blind_float_power (base exponent : Float) : (floatPower base exponent).Blind := by
  unfold floatPower
  grind

@[grind ←]
theorem blind_power (a b : Number.Numeric) :
    (power a b).Blind := by
  unfold power
  grind

@[grind ←]
theorem blind_shift_left (n : Int) (places : Nat) : (shiftLeft n places).Blind := by
  unfold shiftLeft
  grind

end Arithmetic

/-! ## Operators -/

namespace Operand

variable {α : Type}

@[grind ←]
theorem blind_unsupported (symbol : String) (left right : Value) :
    (unsupported symbol left right : Action α).Blind := by
  unfold unsupported
  grind

@[grind ←]
theorem blind_repeat_items (tooLong : Fault) (items : List α)
    (times : Nat) : (repeatItems items times tooLong).Blind := by
  unfold repeatItems
  grind

@[grind ←]
theorem blind_repeated (sequence : Value) (times : Int) : (repeated sequence times).Blind := by
  unfold repeated
  split
  case h_3 | h_4 =>
    refine blind_guard (blind_raise _ _) (blind_guard (blind_stop _) ?_)
    refine blind_read (fun _ _ _ => rfl) fun heap => ?_
    grind
  all_goals grind

@[grind ←]
theorem blind_add (left right : Value) : (add left right).Blind := by
  unfold add
  split
  · grind
  · refine blind_read (fun _ _ _ => rfl) fun heap => ?_
    grind

@[grind ←]
theorem blind_like_set (model : Value) (keys : List Value) :
    (likeSet model keys).Blind := by
  unfold likeSet
  grind

@[grind ←]
theorem blind_on_sets (symbol : String) (combine : List Value → List Value → List Value)
    (left right : Value) : (onSets symbol combine left right).Blind := by
  refine blind_read (fun _ _ _ => rfl) fun heap => ?_
  grind

@[grind ←]
theorem blind_subtract (left right : Value) : (subtract left right).Blind := by
  unfold subtract
  grind

@[grind ←]
theorem blind_multiply (left right : Value) : (multiply left right).Blind := by
  unfold multiply
  grind

@[grind ←]
theorem blind_on_numbers {operation : Number.Numeric → Number.Numeric → Action Value}
    (h : ∀ a b, (operation a b).Blind) (symbol : String) (left right : Value) :
    (onNumbers symbol operation left right).Blind := by
  unfold onNumbers
  grind

@[grind ←]
theorem blind_on_reals {operation : Number.Numeric → Number.Numeric → Action Value}
    (h : ∀ a b, (operation a b).Blind) (symbol : String) (left right : Value) :
    (onReals symbol operation left right).Blind := by
  unfold onReals
  grind

@[grind ←]
theorem blind_bitwise (symbol : String) (onInts : Int → Int → Int)
    (combine : List Value → List Value → List Value) (left right : Value) :
    (bitwise symbol onInts combine left right).Blind := by
  unfold bitwise
  grind

@[grind ←]
theorem blind_shift {move : Int → Nat → Action Value}
    (h : ∀ n places, (move n places).Blind) (symbol : String) (left right : Value) :
    (shift symbol move left right).Blind := by
  unfold shift
  grind

@[grind ←]
theorem blind_ordering (comparison : Heap.Comparison) (left right : Value) :
    (ordering comparison left right).Blind := by
  refine blind_question .bool (Heap.steady_ordered comparison left right) fun heap => ?_
  unfold ordering
  cases hanswer : heap.ordered comparison left right <;>
    simp only [bind, StateT.bind, Except.bind, get, getThe, MonadStateOf.get, StateT.get, pure,
      Except.pure, hanswer] <;>
    rfl

@[grind ←]
theorem blind_any_equal (value : Value) (items : List Value) :
    (anyEqual value items).Blind := by
  induction items with
  | nil => exact blind_pure false
  | cons item items ih =>
      unfold anyEqual
      grind

@[grind ←]
theorem blind_bytes_contain (bytes : List UInt8) (item : Value) :
    (bytesContain bytes item).Blind := by
  unfold bytesContain
  split
  · grind
  · refine blind_read (fun _ _ _ => rfl) fun heap => ?_
    grind

@[grind ←]
theorem blind_contains (container item : Value) : (contains container item).Blind := by
  refine blind_read (fun _ _ _ => rfl) fun heap => ?_
  grind

@[grind ←]
theorem blind_is_same (left right : Value) : (isSame left right).Blind :=
  blind_ask (Heap.steady_same left right)

end Operand

/-- Every binary operator. -/
@[grind ←]
theorem BinaryOperator.blind_operation (operator : BinaryOperator) (left right : Value) :
    (operator.operation left right).Blind := by
  cases operator <;> simp only [operation] <;> grind

/-- Turning an overflow into an error of the language does not look into the heap. -/
@[grind ←]
theorem BinaryOperator.blind_apply (operator : BinaryOperator) (left right : Value) :
    (operator.apply left right).Blind := by
  intro heap functions limit hrecasts
  unfold apply
  obtain hoperation | ⟨hlt, hdeep⟩ :=
    operator.blind_operation left right heap functions limit hrecasts
  · rw [hoperation]
    rcases operator.operation left right heap with failure | outcome
    · rcases failure with raised | fault
      · exact .inl rfl
      · cases fault <;> exact .inl rfl
    · exact .inl rfl
  · rw [hdeep]
    exact .inr ⟨hlt, rfl⟩

@[grind ←]
theorem UnaryOperator.blind_apply (operator : UnaryOperator) (value : Value) :
    (operator.apply value).Blind := by
  unfold apply
  grind

/-! ## Methods -/

/-- A method that does not look into functions whatever its arguments are. -/
def Method.Blind (method : Method) : Prop :=
  ∀ items, (method.run items).Blind

namespace Method

@[grind ←]
theorem blind_nullary {run : Action Value} (h : run.Blind) : (nullary run).Blind :=
  fun _ => h

@[grind ←]
theorem blind_unary {run : Value → Action Value} (h : ∀ value, (run value).Blind) :
    (unary run).Blind :=
  fun _ => h _

@[grind ←]
theorem blind_optional {run : Value → Action Value} (h : ∀ value, (run value).Blind) :
    (optional run).Blind :=
  fun _ => h _

end Method

namespace Builtin

@[grind ←]
theorem blind_require_text (owner : String) (value : Value) :
    (requireText owner value).Blind := by
  unfold requireText
  grind

@[grind ←]
theorem blind_require_int (owner : String) (value : Value) :
    (requireInt owner value).Blind := by
  unfold requireInt
  grind

@[grind ←]
theorem blind_require_size (n : Int) : (requireSize n).Blind := by
  unfold requireSize
  grind

@[grind ←]
theorem blind_require_byte (value : Value) : (requireByte value).Blind := by
  unfold requireByte
  grind

@[grind ←]
theorem blind_check_count (name : String) (count low high : Nat) :
    (checkCount name count low high).Blind := by
  unfold checkCount
  grind

@[grind ←]
theorem blind_check_encoding (name : String) : (checkEncoding name).Blind := by
  unfold checkEncoding
  grind

@[grind ←]
theorem blind_items_of (value : Value) : (itemsOf value).Blind := by
  refine blind_read (fun _ _ _ => rfl) fun heap => ?_
  grind [rangeItems]

@[grind ←]
theorem blind_keys_of (value : Value) : (keysOf value).Blind := by
  unfold keysOf
  grind

/-! ### Texts -/

@[grind ←]
theorem blind_new_text_list (texts : List (List Char)) : (newTextList texts).Blind := by
  unfold newTextList
  grind

@[grind ←]
theorem blind_text_strip (s : String) (chars : Value) : (textStrip s chars).Blind := by
  unfold textStrip
  grind

@[grind ←]
theorem blind_text_split (s : String) (separator : Value) :
    (textSplit s separator).Blind := by
  unfold textSplit
  grind

@[grind ←]
theorem blind_join_texts (place : Nat) (items : List Value) :
    (joinTexts place items).Blind := by
  fun_induction joinTexts place items <;> grind

@[grind ←]
theorem blind_text_join (s : String) (items : Value) : (textJoin s items).Blind := by
  unfold textJoin
  split
  · refine blind_read (fun _ _ _ => rfl) fun heap => ?_
    grind
  all_goals grind

@[grind ←]
theorem blind_text_replace (s : String) (old new count : Value) :
    (textReplace s old new count).Blind := by
  unfold textReplace
  grind

@[grind ←]
theorem blind_text_affix (owner : String) (test : List Char → Bool) (affix : Value) :
    (textAffix owner test affix).Blind := by
  unfold textAffix
  grind

/-- Every method of a text. -/
theorem blind_text_method {s name : String} {method : Method}
    (h : textMethod? s name = some method) : method.Blind := by
  unfold textMethod? at h
  split at h
  -- The methods that look at the number of their arguments are taken apart by hand.
  case h_7 =>
    cases h
    intro items
    dsimp only
    split <;> grind
  all_goals grind

/-! ### Lists and tuples -/

@[grind ←]
theorem blind_place_of (value : Value) (place : Nat) (items : List Value) :
    (placeOf value place items).Blind := by
  fun_induction placeOf value place items <;> grind

@[grind ←]
theorem blind_count_of (value : Value) (items : List Value) :
    (countOf value items).Blind := by
  fun_induction countOf value items <;> grind

@[grind ←]
theorem blind_index_of (kind : String) (items : List Value) (value : Value) :
    (indexOf kind items value).Blind := by
  unfold indexOf
  grind

@[grind ←]
theorem blind_list_pop (id : ListId) (place : Value) : (listPop id place).Blind := by
  refine blind_read (fun _ _ _ => rfl) fun heap => ?_
  grind

@[grind ←]
theorem blind_list_insert (id : ListId) (place value : Value) :
    (listInsert id place value).Blind := by
  unfold listInsert
  grind

@[grind ←]
theorem blind_list_remove (id : ListId) (value : Value) : (listRemove id value).Blind := by
  refine blind_read (fun _ _ _ => rfl) fun heap => ?_
  grind

@[grind ←]
theorem blind_list_sort (id : ListId) : (listSort id).Blind := by
  refine blind_read (fun _ _ _ => rfl) fun heap => ?_
  grind

/-- Every method of a list. -/
theorem blind_list_method {id : ListId} {name : String} {method : Method}
    (h : listMethod? id name = some method) : method.Blind := by
  unfold listMethod? at h
  split at h
  -- What reads the list is taken apart by hand, and so is what looks at its arguments.
  case h_1 | h_8 | h_9 | h_10 =>
    cases h
    intro items
    refine blind_read (fun _ _ _ => rfl) fun heap => ?_
    grind
  case h_5 =>
    cases h
    intro items
    dsimp only
    split <;> grind
  all_goals grind

/-- Every method of a tuple. -/
theorem blind_tuple_method {items : List Value} {name : String} {method : Method}
    (h : tupleMethod? items name = some method) : method.Blind := by
  unfold tupleMethod? at h
  grind

/-! ### Dictionaries and sets -/

@[grind ←]
theorem blind_dict_pop (id : DictId) (key : Value) (default : Option Value) :
    (dictPop id key default).Blind := by
  refine blind_bind (blind_ensure_hashable key) fun _ => ?_
  refine blind_read (fun _ _ _ => rfl) fun heap => ?_
  grind

@[grind ←]
theorem blind_dict_items (entries : List (Value × Value)) : (dictItems entries).Blind := by
  fun_induction dictItems entries <;> grind

@[grind ←]
theorem blind_dict_update (id : DictId) (other : Value) : (dictUpdate id other).Blind := by
  unfold dictUpdate
  split
  · refine blind_read (fun _ _ _ => rfl) fun heap => ?_
    grind
  · grind

@[grind ←]
theorem blind_dict_get (id : DictId) (key default : Value) :
    (dictGet id key default).Blind := by
  refine blind_bind (blind_ensure_hashable key) fun _ => ?_
  exact blind_read (fun _ _ _ => rfl) fun heap => blind_pure _

/-- Every method of a dictionary. -/
theorem blind_dict_method {id : DictId} {name : String} {method : Method}
    (h : dictMethod? id name = some method) : method.Blind := by
  unfold dictMethod? at h
  split at h
  case h_1 | h_2 | h_3 | h_4 | h_9 =>
    cases h
    intro items
    refine blind_read (fun _ _ _ => rfl) fun heap => ?_
    grind
  case h_5 | h_6 =>
    cases h
    intro items
    dsimp only
    split <;> grind
  all_goals grind

/-- Every method that sets and frozen sets share. -/
theorem blind_common_set_method {self : Value} {keys : List Value} {name : String}
    {method : Method} (h : commonSetMethod? self keys name = some method) :
    method.Blind := by
  unfold commonSetMethod? at h
  grind

/-- Every method of a frozen set. -/
theorem blind_frozenset_method {mark : Nat} {keys : List Value} {name : String}
    {method : Method} (h : frozensetMethod? mark keys name = some method) :
    method.Blind := by
  unfold frozensetMethod? at h
  split at h
  · grind
  · exact blind_common_set_method h

@[grind ←]
theorem blind_set_remove (id : SetId) (key : Value) : (setRemove id key).Blind := by
  refine blind_bind (blind_ensure_hashable key) fun _ => ?_
  refine blind_read (fun _ _ _ => rfl) fun heap => ?_
  grind

@[grind ←]
theorem blind_set_pop (id : SetId) : (setPop id).Blind := by
  refine blind_read (fun _ _ _ => rfl) fun heap => ?_
  grind

/-- Every method of a set. -/
theorem blind_set_method {id : SetId} {keys : List Value} {name : String}
    {method : Method} (h : setMethod? id keys name = some method) :
    method.Blind := by
  unfold setMethod? at h
  split at h
  case h_7 => exact blind_common_set_method h
  all_goals grind

/-! ### Bytes and errors -/

@[grind ←]
theorem blind_bytes_decode (bytes : List UInt8) (encoding : Value) :
    (bytesDecode bytes encoding).Blind := by
  unfold bytesDecode
  grind

/-- Every method of bytes. -/
theorem blind_bytes_method {bytes : List UInt8} {name : String} {method : Method}
    (h : bytesMethod? bytes name = some method) : method.Blind := by
  unfold bytesMethod? at h
  split at h
  case h_3 =>
    cases h
    intro items
    grind
  all_goals grind

@[grind ←]
theorem blind_bytearray_pop (id : ByteArrayId) : (bytearrayPop id).Blind := by
  refine blind_read (fun _ _ _ => rfl) fun heap => ?_
  grind

/-- Every method of a byte array. -/
theorem blind_bytearray_method {id : ByteArrayId} {bytes : List UInt8} {name : String}
    {method : Method} (h : bytearrayMethod? id bytes name = some method) : method.Blind := by
  unfold bytearrayMethod? at h
  split at h
  case h_3 => exact blind_bytes_method h
  all_goals grind

@[grind ←]
theorem blind_error_with_cause (id : ErrorId) (cause : Value) :
    (errorWithCause id cause).Blind := by
  unfold errorWithCause
  grind

/-- A note goes into the list that the error has for its notes at that moment. -/
theorem blind_add_note (id : ErrorId) (note : String) :
    (do
      setList ((← get).error id).notes (·.push (.str note))
      return Value.null : Action Value).Blind :=
  blind_read (fun _ _ _ => rfl) fun heap => by grind

/-- Every method of an error. -/
theorem blind_error_method {id : ErrorId} {name : String} {method : Method}
    (h : errorMethod? id name = some method) : method.Blind := by
  unfold errorMethod? at h
  split at h
  · cases h
    refine Method.blind_unary fun note => ?_
    exact blind_bind (blind_require_text _ note) fun note => blind_add_note id note
  · cases h
    exact Method.blind_unary (blind_error_with_cause id)
  · cases h

@[grind ←]
theorem blind_error_attribute (id : ErrorId) (name : String) :
    (errorAttribute? id name).Blind := by
  refine blind_read (fun _ _ _ => rfl) fun heap => ?_
  grind

/-- Every method of every built-in value. -/
theorem blind_method {heap : Heap} {receiver : Value} {name : String} {method : Method}
    (h : method? heap receiver name = some method) : method.Blind := by
  unfold method? at h
  split at h
  · exact blind_text_method h
  · exact blind_list_method h
  · exact blind_tuple_method h
  · exact blind_dict_method h
  · exact blind_set_method h
  · exact blind_frozenset_method h
  · exact blind_bytearray_method h
  · exact blind_bytes_method h
  · exact blind_error_method h
  · cases h

/-- Every call of a method, whatever its arguments are. -/
@[grind ←]
theorem blind_call_method (receiver : Value) (name : String) (items : List Value) :
    (callMethod receiver name items).Blind := by
  refine blind_read (fun _ _ _ => rfl) fun heap => ?_
  split
  · grind
  · rename_i method hmethod
    have hrun : (method.run items).Blind := blind_method hmethod items
    grind

@[grind ←]
theorem blind_get_attribute (object : Value) (name : String) :
    (getAttribute object name).Blind := by
  unfold getAttribute
  grind

/-! ## Functions -/

@[grind ←]
theorem blind_make_range (items : List Value) : (makeRange items).Blind := by
  unfold makeRange
  grind

@[grind ←]
theorem blind_make_collection {gather : Value → Action (List Value)}
    {build : List Value → Action Value} (hgather : ∀ value, (gather value).Blind)
    (hbuild : ∀ items, (build items).Blind) (name : String) (items : List Value) :
    (makeCollection name gather build items).Blind := by
  unfold makeCollection
  grind

@[grind ←]
theorem blind_dict_of_pairs (dict : Dict) (items : List Value) :
    (dictOfPairs dict items).Blind := by
  induction items generalizing dict with
  | nil => exact blind_pure dict
  | cons item items ih =>
      refine blind_read (fun _ _ _ => rfl) fun heap => ?_
      grind

@[grind ←]
theorem blind_make_dict (items : List Value) : (makeDict items).Blind := by
  refine blind_bind (blind_check_count _ _ _ _) fun _ => ?_
  split
  · grind
  · exact blind_read (fun _ _ _ => rfl) fun heap => blind_new_dict _
  · grind

@[grind ←]
theorem blind_byte_values (name : String) (items : List Value) :
    (byteValues name items).Blind := by
  unfold byteValues
  grind

@[grind ←]
theorem blind_int_of_text (s : String) (base : Int) :
    (intOfText s base).Blind := by
  unfold intOfText
  grind

@[grind ←]
theorem blind_make_int (items : List Value) :
    (makeInt items).Blind := by
  unfold makeInt
  grind

@[grind ←]
theorem blind_float_from_int (n : Int) : (floatFromInt n).Blind := by
  unfold floatFromInt
  grind

@[grind ←]
theorem blind_make_float (items : List Value) : (makeFloat items).Blind := by
  unfold makeFloat
  grind

@[grind ←]
theorem blind_complex_part (value : Value) : (complexPart value).Blind := by
  unfold complexPart
  grind

@[grind ←]
theorem blind_make_complex (items : List Value) : (makeComplex items).Blind := by
  unfold makeComplex
  grind

/-- Every function that only computes. -/
@[grind ←]
theorem blind_compute (function : BuiltinFunction)
    (items : List Value) : (compute function items).Blind := by
  unfold compute
  grind

/-! ## Items and thrown values -/

@[grind ←]
theorem blind_require_place {length : Action Nat} (h : length.Blind)
    (collection index : Value) (complaint : String) :
    (requirePlace collection index length complaint).Blind := by
  unfold requirePlace
  grind

@[grind ←]
theorem blind_get_item (collection index : Value) : (getItem collection index).Blind := by
  refine blind_read (fun _ _ _ => rfl) fun heap => ?_
  grind

@[grind ←]
theorem blind_set_item (collection index value : Value) :
    (setItem collection index value).Blind := by
  refine blind_read (fun _ _ _ => rfl) fun heap => ?_
  grind

@[grind ←]
theorem blind_to_error (value : Value) : (toError value).Blind := by
  unfold toError
  grind

@[grind ←]
theorem blind_to_cause (value : Value) : (toCause value).Blind := by
  unfold toCause
  grind

end Builtin

end Script
