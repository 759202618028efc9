import Script.Proofs.Builtin.Run
import Script.Proofs.Eval.Comparison
import Script.Proofs.Operator.Ordering
import Script.Proofs.Value.KeyClass

/-!
# The algebra of sets

Sets have methods, which go through any value that can be gone through, and operators, which take
two sets. Both do what is done to finite sets: a set of the heap stands for the finite set of its
members (`Heap.IsSet`), each of the four operations makes the set that the operation on finite sets
gives (`Heap.makes_method`, `Heap.makes_operator`), and each question is answered as for finite
sets. So methods and operators agree, and the laws of finite sets hold of the sets of a program
(`EvalState.set_algebra`).
-/

namespace Script

open Builtin (callMethod)
open scoped symmDiff

/-! ## The operations -/

/-- The operations that make a set of two. -/
inductive SetOperation where
  | union
  | intersection
  | difference
  | symmetricDifference

namespace SetOperation

/-- The name of the method. -/
def method : SetOperation → String
  | .union => "union"
  | .intersection => "intersection"
  | .difference => "difference"
  | .symmetricDifference => "symmetric_difference"

/-- The operator. -/
def operator : SetOperation → BinaryOperator
  | .union => .bitOr
  | .intersection => .bitAnd
  | .difference => .subtract
  | .symmetricDifference => .bitXor

/-- The operation on finite sets. -/
def join : SetOperation → Finset Value.Key → Finset Value.Key → Finset Value.Key
  | .union, first, second => first ∪ second
  | .intersection, first, second => first ∩ second
  | .difference, first, second => first \ second
  | .symmetricDifference, first, second => first ∆ second

/-- What the operator does to the members. -/
def combine : SetOperation → List Value → List Value → List Value
  | .union => Keys.insertAll
  | .intersection => Operand.sharedKeys
  | .difference => Keys.diff
  | .symmetricDifference => Keys.symmDiff

/-- What the method does to the members and to the items of its argument. -/
def gather : SetOperation → List Value → List Value → List Value
  | .union => Keys.insertAll
  | .intersection => fun keys items => Keys.ofList (items.filter fun item => Keys.mem item keys)
  | .difference => Keys.diff
  | .symmetricDifference => fun keys items => Keys.symmDiff keys (Keys.ofList items)

section Lists

variable [KnownClasses] {keys others : List Value}

theorem sound_combine (operation : SetOperation) (hkeys : Keys.Sound keys)
    (hothers : Keys.Sound others) : Keys.Sound (operation.combine keys others) := by
  cases operation with
  | union => exact hkeys.insert_all hothers.fit
  | intersection => exact hkeys.shared hothers
  | difference => exact hkeys.diff others
  | symmetricDifference => exact hkeys.symm_diff hothers

theorem classes_combine (operation : SetOperation) (hkeys : Keys.Sound keys)
    (hothers : Keys.Sound others) :
    Keys.classes (operation.combine keys others) =
      operation.join (Keys.classes keys) (Keys.classes others) := by
  cases operation with
  | union => exact Keys.classes_insert_all hkeys hothers.fit
  | intersection => exact Keys.classes_shared hkeys.fit hothers.fit
  | difference => exact Keys.classes_diff hkeys.fit hothers.fit
  | symmetricDifference => exact Keys.classes_symm_diff hkeys.fit hothers.fit

theorem sound_gather (operation : SetOperation) (hkeys : Keys.Sound keys)
    (hothers : Keys.Sound others) : Keys.Sound (operation.gather keys others) := by
  cases operation with
  | union => exact hkeys.insert_all hothers.fit
  | intersection => exact (hothers.fit.filter _).of_list
  | difference => exact hkeys.diff others
  | symmetricDifference => exact hkeys.symm_diff hothers.fit.of_list

theorem classes_gather (operation : SetOperation) (hkeys : Keys.Sound keys)
    (hothers : Keys.Sound others) :
    Keys.classes (operation.gather keys others) =
      operation.join (Keys.classes keys) (Keys.classes others) := by
  cases operation with
  | union => exact Keys.classes_insert_all hkeys hothers.fit
  | intersection =>
      have hinter : Keys.classes (Keys.inter others keys) =
          Keys.classes others ∩ Keys.classes keys := Keys.classes_inter hothers.fit hkeys.fit
      rw [Finset.inter_comm] at hinter
      exact (Keys.classes_of_list (hothers.fit.filter _)).trans hinter
  | difference => exact Keys.classes_diff hkeys.fit hothers.fit
  | symmetricDifference =>
      refine (Keys.classes_symm_diff hkeys.fit hothers.fit.of_list.fit).trans ?_
      rw [Keys.classes_of_list hothers.fit]
      rfl

end Lists

end SetOperation

namespace Heap

/-! ## The sets of a heap -/

/-- The value is a set or a frozen set of the heap. -/
inductive HasSet (heap : Heap) : Value → Prop where
  | set {id : SetId} (h : id < heap.sets.next) : HasSet heap (.set id)
  | frozenset {mark : Nat} {keys : List Value} : HasSet heap (.frozenset mark keys)

/-- The value is a set of the heap that stands for a finite set. -/
inductive IsSet [KnownClasses] (heap : Heap) : Value → Finset Value.Key → Prop where
  | intro {value : Value} {keys : List Value} (hset : heap.HasSet value)
      (hmembers : heap.members? value = some keys) (hkeys : Keys.Sound keys) :
      IsSet heap value (Keys.classes keys)

/-- All the sets of a heap are as they were in another. -/
def KeepsSets [KnownClasses] (heap after : Heap) : Prop :=
  ∀ value members, heap.IsSet value members → after.IsSet value members

/-- The action makes a set of the sort of a model that stands for a finite set, and leaves all sets
as they are. -/
def Makes [KnownClasses] (heap : Heap) (action : Action Value) (model : Value)
    (members : Finset Value.Key) : Prop :=
  ∃ value after, action heap = .ok (value, after) ∧ after.IsSet value members ∧
    after.typeName value = heap.typeName model ∧ heap.KeepsSets after

variable [KnownClasses] {heap after : Heap} {a b model : Value} {keys others : List Value}
  {A B : Finset Value.Key}

theorem IsSet.has_set (h : heap.IsSet a A) : heap.HasSet a := by
  cases h with
  | intro hset => exact hset


/-- The members of a set are its own in every heap that has the sets of the first. -/
theorem keeps_sets_of_members (hset : ∀ value, heap.HasSet value → after.HasSet value)
    (hmembers : ∀ value, heap.HasSet value → after.members? value = heap.members? value) :
    heap.KeepsSets after := by
  rintro value _ ⟨hvalue, hkeys, hsound⟩
  exact .intro (hset value hvalue) ((hmembers value hvalue).trans hkeys) hsound

theorem keeps_sets_push (heap : Heap) (keys : List Value) :
    heap.KeepsSets { heap with sets := heap.sets.push keys } := by
  refine keeps_sets_of_members (fun value hvalue => ?_) fun value hvalue => ?_
  · cases hvalue with
    | set h =>
        refine .set ?_
        show _ < (heap.sets.push keys).next
        exact Store.next_push heap.sets keys ▸ Nat.lt_succ_of_lt h
    | frozenset => exact .frozenset
  · cases hvalue with
    | set h =>
        show some ((heap.sets.push keys).get _) = some (heap.sets.get _)
        rw [Store.get_push, if_neg h.ne]
    | frozenset => rfl

theorem keeps_sets_mark (heap : Heap) :
    heap.KeepsSets { heap with nextMark := heap.nextMark + 1 } := by
  refine keeps_sets_of_members (fun value hvalue => ?_) fun value hvalue => ?_
  · cases hvalue with
    | set h => exact .set h
    | frozenset => exact .frozenset
  · cases hvalue <;> rfl

/-- A set is given the sort of the first operand. -/
theorem makes_like_set (hmodel : heap.HasSet model) (hkeys : Keys.Sound keys) :
    heap.Makes (Operand.likeSet model keys) model (Keys.classes keys) := by
  cases hmodel with
  | set =>
      refine ⟨.set heap.sets.next, _, rfl, .intro (.set ?_) ?_ hkeys, rfl,
        keeps_sets_push heap keys⟩
      · simp
      · show some ((heap.sets.push keys).get heap.sets.next) = some keys
        rw [Store.get_push, if_pos rfl]
  | frozenset =>
      exact ⟨.frozenset heap.nextMark keys, _, rfl, .intro .frozenset rfl hkeys, rfl,
        keeps_sets_mark heap⟩

/-! ## Methods and operators -/

omit [KnownClasses] in
theorem items_of_set (hset : heap.HasSet b) (hmembers : heap.members? b = some others) :
    Builtin.itemsOf b heap = .ok (others, heap) := by
  cases hset <;> cases hmembers <;> rfl

omit [KnownClasses] in
/-- All methods of sets but those that copy or change them are shared with the frozen sets. -/
theorem method_of_set (hset : heap.HasSet a) (hmembers : heap.members? a = some keys)
    {name : String} (hname : name ∉ ["copy", "add", "remove", "discard", "pop", "clear"]) :
    Builtin.method? heap a name = Builtin.commonSetMethod? a keys name := by
  simp only [List.mem_cons, List.not_mem_nil, or_false, not_or] at hname
  cases hset with
  | set =>
      cases hmembers
      show Builtin.setMethod? _ _ _ = _
      unfold Builtin.setMethod?
      split <;> simp_all
  | frozenset =>
      cases hmembers
      show Builtin.frozensetMethod? _ _ _ = _
      unfold Builtin.frozensetMethod?
      split <;> simp_all

/-- A method that makes a set goes through its argument and then makes the set. -/
theorem makes_method (operation : SetOperation) (ha : heap.IsSet a A) (hb : heap.IsSet b B) :
    heap.Makes (callMethod a operation.method [b]) a (operation.join A B) := by
  obtain ⟨hset, hmembers, hkeys⟩ := ha
  obtain ⟨hset', hmembers', hothers⟩ := hb
  rename_i keys others
  have hitems := Builtin.keys_of_run (items_of_set hset' hmembers') hothers.hashable
  have hmethod : Builtin.method? heap a operation.method = some (.unary fun other =>
      Builtin.keysOf other >>= fun items => Operand.likeSet a (operation.gather keys items)) := by
    cases operation <;> exact (method_of_set hset hmembers (by decide)).trans rfl
  have hcall : callMethod a operation.method [b] heap =
      Operand.likeSet a (operation.gather keys others) heap := by
    rw [Builtin.call_unary_run hmethod, Action.bind_run hitems]
  have hmakes := makes_like_set hset (operation.sound_gather hkeys hothers)
  rw [operation.classes_gather hkeys hothers] at hmakes
  obtain ⟨value, after, hmade, hvalue⟩ := hmakes
  exact ⟨value, after, hcall.trans hmade, hvalue⟩

/-- An operator combines the members of two sets. -/
theorem makes_operator (operation : SetOperation) (ha : heap.IsSet a A) (hb : heap.IsSet b B) :
    heap.Makes (operation.operator.apply a b) a (operation.join A B) := by
  obtain ⟨hset, hmembers, hkeys⟩ := ha
  obtain ⟨hset', hmembers', hothers⟩ := hb
  rename_i keys others
  have hmakes := makes_like_set hset (operation.sound_combine hkeys hothers)
  rw [operation.classes_combine hkeys hothers] at hmakes
  obtain ⟨value, after, hmade, hvalue⟩ := hmakes
  have hrun : operation.operator.operation a b heap =
      Operand.likeSet a (operation.combine keys others) heap := by
    cases hset <;> cases hmembers <;> cases hset' <;> cases hmembers' <;> cases operation <;> rfl
  exact ⟨value, after, BinaryOperator.apply_run (hrun.trans hmade), hvalue⟩

/-! ## Questions -/

omit [KnownClasses] in
theorem decide_eq_of_iff {question : Bool} {answer : Prop} [Decidable answer]
    (h : question = true ↔ answer) : decide answer = question :=
  Bool.eq_iff_iff.mpr (decide_eq_true_iff.trans h.symm)

omit [KnownClasses] in
/-- A method that asks about the items of its argument. -/
theorem returns_method (question : List Value → Bool) {name : String} {answer : Prop}
    [Decidable answer] (ha : heap.HasSet a) (hkeys : heap.members? a = some keys)
    (hb : heap.HasSet b) (hothers : heap.members? b = some others)
    (hhashable : ∀ key ∈ others, key.isHashable = true)
    (hname : name ∉ ["copy", "add", "remove", "discard", "pop", "clear"])
    (hmethod : Builtin.commonSetMethod? a keys name = some (.unary fun other => do
      return .bool (question (← Builtin.keysOf other))))
    (hanswer : question others = true ↔ answer) :
    heap.Returns (callMethod a name [b]) (.bool (decide answer)) := by
  have hitems := Builtin.keys_of_run (items_of_set hb hothers) hhashable
  refine ⟨heap, ?_⟩
  rw [Builtin.call_unary_run ((method_of_set ha hkeys hname).trans hmethod),
    Action.bind_run hitems, decide_eq_of_iff hanswer]
  rfl

theorem returns_subset (ha : heap.IsSet a A) (hb : heap.IsSet b B) :
    heap.Returns (callMethod a "issubset" [b]) (.bool (decide (A ⊆ B))) := by
  obtain ⟨hset, hmembers, hkeys⟩ := ha
  obtain ⟨hset', hmembers', hothers⟩ := hb
  exact returns_method (Keys.subset _ ·) hset hmembers hset' hmembers' hothers.hashable
    (by decide) rfl (Keys.subset_iff hkeys.fit hothers.fit)

theorem returns_superset (ha : heap.IsSet a A) (hb : heap.IsSet b B) :
    heap.Returns (callMethod a "issuperset" [b]) (.bool (decide (B ⊆ A))) := by
  obtain ⟨hset, hmembers, hkeys⟩ := ha
  obtain ⟨hset', hmembers', hothers⟩ := hb
  exact returns_method (Keys.subset · _) hset hmembers hset' hmembers' hothers.hashable
    (by decide) rfl (Keys.subset_iff hothers.fit hkeys.fit)

theorem returns_disjoint (ha : heap.IsSet a A) (hb : heap.IsSet b B) :
    heap.Returns (callMethod a "isdisjoint" [b]) (.bool (decide (A ∩ B = ∅))) := by
  obtain ⟨hset, hmembers, hkeys⟩ := ha
  obtain ⟨hset', hmembers', hothers⟩ := hb
  exact returns_method (fun items => !items.any (Keys.mem · _)) hset hmembers hset' hmembers'
    hothers.hashable (by decide) rfl (Keys.disjoint_iff hkeys.fit hothers.fit)

theorem returns_length (ha : heap.IsSet a A) :
    heap.Returns (callMethod a "len" []) (.int A.card) := by
  obtain ⟨hset, hmembers, hkeys⟩ := ha
  refine ⟨heap, ?_⟩
  rw [Builtin.call_nullary_run ((method_of_set hset hmembers (by decide)).trans rfl),
    Keys.card_classes hkeys]
  rfl

omit [KnownClasses] in
theorem shape_of_set (hset : heap.HasSet a) (hmembers : heap.members? a = some keys) :
    heap.shape a = .members keys := by
  cases hset <;> cases hmembers <;> rfl

/-- Sets are compared by their members, whatever their sorts. -/
theorem equal_of_sets (ha : heap.IsSet a A) (hb : heap.IsSet b B) :
    heap.equal a b = .ok (decide (A = B)) := by
  obtain ⟨hset, hmembers, hkeys⟩ := ha
  obtain ⟨hset', hmembers', hothers⟩ := hb
  rename_i keys others
  have hsame := decide_eq_of_iff (Keys.same_set_iff_classes hkeys hothers)
  have hwithin : heap.equalWithin 1 a b = .ok (Keys.sameSet keys others) := by
    rw [equal_within_succ, shape_of_set hset hmembers, shape_of_set hset' hmembers']
    rfl
  rw [hsame]
  exact equal_of_within hwithin (by decide)

/-- What a comparison asks about finite sets. -/
def Comparison.includes : Comparison → Finset Value.Key → Finset Value.Key → Prop
  | .less, first, second => first ⊂ second
  | .greater, first, second => second ⊂ first
  | .lessEqual, first, second => first ⊆ second
  | .greaterEqual, first, second => second ⊆ first

instance : (comparison : Comparison) → (first second : Finset Value.Key) →
    Decidable (comparison.includes first second)
  | .less, first, second => inferInstanceAs (Decidable (first ⊂ second))
  | .greater, first, second => inferInstanceAs (Decidable (second ⊂ first))
  | .lessEqual, first, second => inferInstanceAs (Decidable (first ⊆ second))
  | .greaterEqual, first, second => inferInstanceAs (Decidable (second ⊆ first))

/-- A set is a proper part of another if it is a part of it and smaller. -/
theorem proper_subset_iff (hkeys : Keys.Sound keys) (hothers : Keys.Sound others) :
    (decide (keys.length < others.length) && Keys.subset keys others) = true ↔
      Keys.classes keys ⊂ Keys.classes others := by
  rw [Bool.and_eq_true, decide_eq_true_iff, Keys.subset_iff hkeys.fit hothers.fit,
    ← Keys.card_classes hkeys, ← Keys.card_classes hothers]
  constructor
  · rintro ⟨hcard, hsubset⟩
    exact Finset.ssubset_iff_subset_ne.mpr ⟨hsubset, fun heq => hcard.ne (congrArg _ heq)⟩
  · intro h
    exact ⟨Finset.card_lt_card h, h.subset⟩

theorem holds_of_sets_iff (comparison : Comparison) (hkeys : Keys.Sound keys)
    (hothers : Keys.Sound others) :
    comparison.holdsOfSets keys others = true ↔
      comparison.includes (Keys.classes keys) (Keys.classes others) := by
  cases comparison with
  | less => exact proper_subset_iff hkeys hothers
  | greater => exact proper_subset_iff hothers hkeys
  | lessEqual => exact Keys.subset_iff hkeys.fit hothers.fit
  | greaterEqual => exact Keys.subset_iff hothers.fit hkeys.fit

/-- Sets are ordered by inclusion. -/
theorem returns_ordering (comparison : Comparison) (ha : heap.IsSet a A) (hb : heap.IsSet b B) :
    heap.Returns ((BinaryOperator.ofComparison comparison).apply a b)
      (.bool (decide (comparison.includes A B))) := by
  obtain ⟨hset, hmembers, hkeys⟩ := ha
  obtain ⟨hset', hmembers', hothers⟩ := hb
  rename_i keys others
  have hwithin : heap.orderedWithin comparison 1 a b =
      .ok (comparison.holdsOfSets keys others) := by
    cases hset <;> cases hmembers <;> cases hset' <;> cases hmembers' <;> rfl
  have hallowed : heap.areOrdered a b = true := by
    cases hset <;> cases hset' <;> rfl
  have hdecide := decide_eq_of_iff (holds_of_sets_iff comparison hkeys hothers)
  rw [hdecide]
  exact ⟨heap, BinaryOperator.apply_of_ordered_within comparison hallowed hwithin (by decide)⟩

/-! ## Questions about what has been made -/

/-- An operator applied to what two actions make, one after the other. -/
def joined (operator : BinaryOperator) (first second : Action Value) : Action Value := do
  let left ← first
  let right ← second
  operator.apply left right

/-- The size of the set that an action makes. -/
def sizeOf (action : Action Value) : Action Value := do
  let set ← action
  callMethod set "len" []

theorem makes_joined (operation : SetOperation) {first second : Action Value}
    (hfirst : heap.Makes first a A)
    (hsecond : ∀ after, heap.KeepsSets after → after.Makes second model B) :
    heap.Makes (joined operation.operator first second) a (operation.join A B) := by
  obtain ⟨left, middle, hleft, hleftSet, hsort, hkeeps⟩ := hfirst
  obtain ⟨right, last, hright, hrightSet, -, hkeeps'⟩ := hsecond middle hkeeps
  obtain ⟨value, after, hvalue, hset, hsort', hkeeps''⟩ :=
    makes_operator operation (hkeeps' _ _ hleftSet) hrightSet
  refine ⟨value, after, ?_, hset, ?_, fun _ _ h => hkeeps'' _ _ (hkeeps' _ _ (hkeeps _ _ h))⟩
  · rw [joined, Action.bind_run hleft, Action.bind_run hright, hvalue]
  · rw [hsort', ← hsort]
    cases hleftSet.has_set <;> rfl

theorem returns_joined_equal {first second : Action Value} (hfirst : heap.Makes first a A)
    (hsecond : ∀ after, heap.KeepsSets after → after.Makes second model B) :
    heap.Returns (joined .equal first second) (.bool (decide (A = B))) := by
  obtain ⟨left, middle, hleft, hleftSet, -, hkeeps⟩ := hfirst
  obtain ⟨right, last, hright, hrightSet, -, hkeeps'⟩ := hsecond middle hkeeps
  have hequal := BinaryOperator.equal_apply (equal_of_sets (hkeeps' _ _ hleftSet) hrightSet)
  exact ⟨last, by rw [joined, Action.bind_run hleft, Action.bind_run hright, hequal]⟩

theorem returns_size {action : Action Value} (h : heap.Makes action a A) :
    heap.Returns (sizeOf action) (.int A.card) := by
  obtain ⟨value, middle, hvalue, hset, -⟩ := h
  obtain ⟨after, hlength⟩ := returns_length hset
  exact ⟨after, by rw [sizeOf, Action.bind_run hvalue, hlength]⟩

/-! ## The laws -/

/-- What holds of two sets of a heap that stand for two finite sets: that the operations and the
questions have a result, and what it is. -/
structure SetLaws (heap : Heap) (a b : Value) (A B : Finset Value.Key) : Prop where
  /-- Both ways to write an operation make a set of the sort of the first, which stands for what the
  operation on finite sets gives. -/
  makes (operation : SetOperation) :
    heap.Makes (callMethod a operation.method [b]) a (operation.join A B) ∧
    heap.Makes (operation.operator.apply a b) a (operation.join A B)
  /-- The method and the operator of an operation make equal sets. -/
  agree (operation : SetOperation) :
    heap.Returns (joined .equal (callMethod a operation.method [b]) (operation.operator.apply a b))
      (.bool true)
  /-- What is in one of the sets only is what is in any of them but not in both. -/
  symmetric_difference :
    heap.Returns
      (joined .equal (BinaryOperator.bitXor.apply a b)
        (joined .subtract (BinaryOperator.bitOr.apply a b) (BinaryOperator.bitAnd.apply a b)))
      (.bool true)
  /-- Three ways to ask whether the first set is a part of the second. -/
  subset : ∃ (included : Bool) (left : Nat),
    heap.Returns (callMethod a "issubset" [b]) (.bool included) ∧
    heap.Returns (BinaryOperator.lessEqual.apply a b) (.bool included) ∧
    heap.Returns (sizeOf (BinaryOperator.subtract.apply a b)) (.int left) ∧
    (included = true ↔ left = 0)
  /-- Three ways to ask whether the second set is a part of the first. -/
  superset : ∃ included : Bool,
    heap.Returns (callMethod a "issuperset" [b]) (.bool included) ∧
    heap.Returns (BinaryOperator.greaterEqual.apply a b) (.bool included) ∧
    heap.Returns (callMethod b "issubset" [a]) (.bool included)
  /-- Two ways to ask whether the sets have nothing in common. -/
  disjoint : ∃ (apart : Bool) (shared : Nat),
    heap.Returns (callMethod a "isdisjoint" [b]) (.bool apart) ∧
    heap.Returns (sizeOf (BinaryOperator.bitAnd.apply a b)) (.int shared) ∧
    (apart = true ↔ shared = 0)
  /-- The first set is a proper part of the second if it is a part of it and differs from it. -/
  proper : ∃ included differs : Bool,
    heap.Returns (BinaryOperator.lessEqual.apply a b) (.bool included) ∧
    heap.Returns (BinaryOperator.notEqual.apply a b) (.bool differs) ∧
    heap.Returns (BinaryOperator.less.apply a b) (.bool (included && differs))
  /-- The sets together are as large as what is in any of them and what is in both. -/
  sizes : ∃ whole shared first second : Nat,
    heap.Returns (sizeOf (BinaryOperator.bitOr.apply a b)) (.int whole) ∧
    heap.Returns (sizeOf (BinaryOperator.bitAnd.apply a b)) (.int shared) ∧
    heap.Returns (callMethod a "len" []) (.int first) ∧
    heap.Returns (callMethod b "len" []) (.int second) ∧
    whole + shared = first + second

/-- The laws of finite sets hold of the sets of a heap. -/
theorem set_laws (ha : heap.IsSet a A) (hb : heap.IsSet b B) : heap.SetLaws a b A B where
  makes operation := ⟨makes_method operation ha hb, makes_operator operation ha hb⟩
  agree operation := by
    have hequal := returns_joined_equal (makes_method operation ha hb) fun after hkeeps =>
      makes_operator operation (hkeeps a A ha) (hkeeps b B hb)
    rwa [decide_eq_true rfl] at hequal
  symmetric_difference := by
    have hequal := returns_joined_equal (makes_operator .symmetricDifference ha hb)
      fun after hkeeps =>
        makes_joined .difference (makes_operator .union (hkeeps a A ha) (hkeeps b B hb))
          fun last hkeeps' => makes_operator .intersection
            (hkeeps' a A (hkeeps a A ha)) (hkeeps' b B (hkeeps b B hb))
    have hlaw : A ∆ B = (A ∪ B) \ (A ∩ B) := symmDiff_eq_sup_sdiff_inf A B
    rwa [SetOperation.join, SetOperation.join, SetOperation.join, SetOperation.join,
      decide_eq_true hlaw] at hequal
  subset := by
    have hleft : A ⊆ B ↔ (A \ B).card = 0 := by
      rw [Finset.card_eq_zero, Finset.sdiff_eq_empty_iff_subset]
    exact ⟨_, _, returns_subset ha hb, returns_ordering .lessEqual ha hb,
      returns_size (makes_operator .difference ha hb), decide_eq_true_iff.trans hleft⟩
  superset :=
    ⟨_, returns_superset ha hb, returns_ordering .greaterEqual ha hb, returns_subset hb ha⟩
  disjoint :=
    ⟨_, _, returns_disjoint ha hb, returns_size (makes_operator .intersection ha hb),
      decide_eq_true_iff.trans Finset.card_eq_zero.symm⟩
  proper := by
    have hproper := returns_ordering .less ha hb
    have hlaw : (decide (A ⊆ B) && !decide (A = B)) = decide (A ⊂ B) := by
      rw [← decide_not, ← Bool.decide_and]
      exact decide_eq_decide.mpr Finset.ssubset_iff_subset_ne.symm
    refine ⟨_, _, returns_ordering .lessEqual ha hb,
      ⟨heap, BinaryOperator.not_equal_apply (equal_of_sets ha hb)⟩, ?_⟩
    exact hlaw ▸ hproper
  sizes :=
    ⟨_, _, _, _, returns_size (makes_operator .union ha hb),
      returns_size (makes_operator .intersection ha hb), returns_length ha, returns_length hb,
      Finset.card_union_add_card_inter A B⟩

end Heap

/-! ## The sets of a program -/

namespace EvalState

attribute [local instance] KnownClasses.all

variable {state : EvalState} {a b : Value}

/-- What a program has at hand, if it is a set, stands for a finite set. -/
theorem AtHand.exists_is_set (hstate : state.Arises) (hvalue : state.AtHand a)
    (hset : state.world.heap.HasSet a) : ∃ members, state.world.heap.IsSet a members := by
  have hmembers : ∃ keys, state.world.heap.members? a = some keys := by
    cases hset <;> exact ⟨_, rfl⟩
  obtain ⟨keys, hkeys⟩ := hmembers
  have hsound := Operand.sound_members hstate.sound.heap (hvalue.sound hstate) hkeys
  exact ⟨_, .intro hset hkeys hsound⟩

/-- Methods and operators on the sets and frozen sets that a program has at hand do what is done to
finite sets. So they agree with each other, and obey the laws of finite sets. -/
theorem set_algebra (hstate : state.Arises) (ha : state.AtHand a) (hb : state.AtHand b)
    (hset : state.world.heap.HasSet a) (hset' : state.world.heap.HasSet b) :
    ∃ A B, state.world.heap.IsSet a A ∧ state.world.heap.IsSet b B ∧
      state.world.heap.SetLaws a b A B := by
  obtain ⟨A, ha⟩ := ha.exists_is_set hstate hset
  obtain ⟨B, hb⟩ := hb.exists_is_set hstate hset'
  exact ⟨A, B, ha, hb, Heap.set_laws ha hb⟩

/-- The set `{1, "x"}` and the frozen set of `true` and `2`, which share a member. -/
theorem set_algebra_across_sorts :
    let state := afterStatements [.letBind "a" (.set [.int 1, .string "x"]),
      .letBind "b" (.call (.name "frozenset") [.set [.bool true, .int 2]])]
    let a : Value := .set 0
    let b : Value := .frozenset 1 [.bool true, .int 2]
    state.Arises ∧ state.scope.get? "a" = some a ∧ state.scope.get? "b" = some b ∧
      state.AtHand a ∧ state.AtHand b ∧ state.world.heap.HasSet a ∧ state.world.heap.HasSet b ∧
      ∃ A B, state.world.heap.IsSet a A ∧ state.world.heap.IsSet b B ∧
        state.world.heap.SetLaws a b A B := by
  intro state a b
  have hends : (Eval.body (Eval.evaluate 5) [.letBind "a" (.set [.int 1, .string "x"]),
      .letBind "b" (.call (.name "frozenset") [.set [.bool true, .int 2]])]
      (Interpreter.fresh 1000 (Console.ofInput "")).started).1 = .ok .null := rfl
  have harises : state.Arises := .occurs (occurs_after_statements (Prod.ext hends rfl))
  have ha : state.scope.get? "a" = some a := rfl
  have hb : state.scope.get? "b" = some b := rfl
  have hset : state.world.heap.HasSet a := .set (by decide)
  have hset' : state.world.heap.HasSet b := .frozenset
  exact ⟨harises, ha, hb, .held (.bound ha), .held (.bound hb), hset, hset',
    set_algebra harises (.held (.bound ha)) (.held (.bound hb)) hset hset'⟩

end EvalState

end Script
