import Script.Operator.Apply
import Script.Proofs.Heap.Room

/-!
# What is equal

Two values are equal if their shapes are alike (`Shape.Alike`). `Heap.Equals` is equality without a
limit on how deep values are nested, and `Heap.Same` is what `is` asks for. The four operators
that compare two values answer as these relations say, unless the machine gives up because both
values are nested too deeply (`BinaryOperator.Answers`).
-/

namespace Script

/-! ## Values without parts -/

/-- Ranges have the same members if they go through the same numbers. -/
theorem Range.same_members_iff_to_list (first second : Range) :
    first.sameMembers second = true ↔ first.toList = second.toList := by
  unfold sameMembers toList
  simp only [Bool.and_eq_true, Bool.or_eq_true, beq_iff_eq]
  constructor
  · rintro ⟨hlength, hmembers⟩
    rw [← hlength]
    refine List.map_congr_left fun place hplace => ?_
    have hlt := List.mem_range.mp hplace
    unfold get
    obtain hempty | ⟨hstart, hone | hstep⟩ := hmembers
    · omega
    · obtain rfl : place = 0 := by omega
      simp [hstart]
    · rw [hstart, hstep]
  · intro h
    have hlength : first.length = second.length := by simpa using congrArg List.length h
    rw [← hlength] at h
    have hget {place : Nat} (hplace : place < first.length) : first.get place = second.get place :=
      List.map_inj_left.mp h place (List.mem_range.mpr hplace)
    refine ⟨hlength, ?_⟩
    by_cases hempty : first.length = 0
    · exact .inl hempty
    have hstart : first.start = second.start := by
      simpa [get] using hget (Nat.pos_of_ne_zero hempty)
    refine .inr ⟨hstart, ?_⟩
    by_cases hone : first.length = 1
    · exact .inl hone
    · have hsecond : first.get 1 = second.get 1 := hget (by omega)
      refine .inr ?_
      simpa [get, hstart] using hsecond

namespace Value

/-- The value is a double or a complex number. -/
def isFloating : Value → Bool
  | .float _ | .complex _ => true
  | _ => false

variable {a b c : Value}

theorem not_same_nan (h : a.isFloating = false) : a.sameNaN b = false := by
  unfold sameNaN
  split
  · cases h
  · cases h
  · rfl

/-- Identical values are one and the same, doubles and complex numbers apart. -/
theorem eq_of_identical (ha : a.isFloating = false) (h : a.isIdentical b = true) : a = b := by
  unfold isIdentical at h
  split at h
  case h_7 =>
    rw [not_same_nan ha] at h
    cases h
  all_goals rw [eq_of_beq h]

theorem isFloating_of_identical (h : a.isIdentical b = true) : a.isFloating = b.isFloating := by
  unfold isIdentical at h
  split at h
  case h_7 =>
    unfold sameNaN at h
    split at h
    · rfl
    · rfl
    · cases h
  all_goals rfl

theorem atom_equal_iff (hatom : a.isAtom = true) (ha : a.isFloating = false) :
    a.atomEqual b = true ↔ a.identity = b.identity := by
  rw [← atom_same_iff hatom, not_same_nan ha, Bool.or_false]

theorem atom_equal_symm (ha : a.isFloating = false) (hb : b.isFloating = false)
    (h : a.atomEqual b = true) : b.atomEqual a = true := by
  have hatom := isAtom_of_atom_equal h
  rw [atom_equal_iff hatom ha] at h
  rw [atom_equal_iff (isAtom_of_identity hatom h) hb]
  exact h.symm

theorem atom_equal_trans (ha : a.isFloating = false) (hb : b.isFloating = false)
    (h : a.atomEqual b = true) (h' : b.atomEqual c = true) : a.atomEqual c = true := by
  have hatom := isAtom_of_atom_equal h
  rw [atom_equal_iff (isAtom_of_atom_equal h') hb] at h'
  rw [atom_equal_iff hatom ha] at h ⊢
  exact h.trans h'

theorem same_key_refl (value : Value) : value.sameKey value = true := by
  induction value using inductionOnParts with
  | tuple mark items ih =>
      exact (same_key_tuple_iff mark items _).mpr ⟨mark, items, rfl, List.forall₂_same.mpr ih⟩
  | frozenset mark keys ih =>
      exact (same_key_frozenset_iff mark keys _).mpr
        ⟨mark, keys, rfl, rfl, fun key hkey => ⟨key, hkey, ih key hkey⟩⟩
  | atom value hatom => exact (same_key_atom_iff hatom).mpr rfl

end Value

namespace Keys

variable {keys others more : List Value}

theorem same_set_iff :
    sameSet keys others = true ↔
      keys.length = others.length ∧ ∀ key ∈ keys, ∃ other ∈ others, key.sameKey other = true := by
  simp [sameSet, subset, mem]

theorem same_set_refl (keys : List Value) : sameSet keys keys = true :=
  same_set_iff.mpr ⟨rfl, fun key hkey => ⟨key, hkey, key.same_key_refl⟩⟩

theorem same_set_trans (h : sameSet keys others = true) (h' : sameSet others more = true) :
    sameSet keys more = true := by
  obtain ⟨hlength, hwithin⟩ := same_set_iff.mp h
  obtain ⟨hlength', hwithin'⟩ := same_set_iff.mp h'
  refine same_set_iff.mpr ⟨hlength.trans hlength', fun key hkey => ?_⟩
  obtain ⟨other, hother, hsame⟩ := hwithin key hkey
  obtain ⟨last, hlast, hsame'⟩ := hwithin' other hother
  exact ⟨last, hlast, Value.same_key_trans hsame hsame'⟩

end Keys

/-! ## Shapes that are alike -/

namespace Shape

/-- Two shapes are alike, for parts that are related in some way. -/
inductive Alike (R : Value → Value → Prop) : Shape → Shape → Prop where
  | list {xs ys : List Value} (h : List.Forall₂ R xs ys) : Alike R (.list xs) (.list ys)
  | tuple {xs ys : List Value} (h : List.Forall₂ R xs ys) : Alike R (.tuple xs) (.tuple ys)
  | dict {entries others : Dict} (hsize : entries.size = others.size)
      (h : ∀ entry ∈ entries.entries,
        ∃ value, others.get? entry.1 = some value ∧ R value entry.2) :
      Alike R (.dict entries) (.dict others)
  | error (kind : ErrorKind) (arguments : List String) :
      Alike R (.error kind arguments) (.error kind arguments)
  | members {keys others : List Value} (h : Keys.sameSet keys others = true) :
      Alike R (.members keys) (.members others)
  | bytes (contents : List UInt8) : Alike R (.bytes contents) (.bytes contents)
  | atom {a b : Value} (h : a.atomEqual b = true) : Alike R (.atom a) (.atom b)

section Alike

variable {R : Value → Value → Prop}

theorem alike_atom_iff {a b : Value} :
    (Shape.atom a).Alike R (.atom b) ↔ a.atomEqual b = true := by
  constructor
  · intro halike
    cases halike with
    | atom h => exact h
  · exact .atom

theorem alike_members_iff {keys others : List Value} :
    (Shape.members keys).Alike R (.members others) ↔ Keys.sameSet keys others = true := by
  constructor
  · intro halike
    cases halike with
    | members h => exact h
  · exact .members

theorem alike_bytes_iff {contents others : List UInt8} :
    (Shape.bytes contents).Alike R (.bytes others) ↔ contents = others := by
  constructor
  · intro halike
    cases halike
    rfl
  · rintro rfl
    exact .bytes contents

end Alike

theorem all_agree_iff {agree : Value → Value → Except Fault Bool} {xs ys : List Value} :
    Heap.allAgree agree xs ys = .ok true ↔
      List.Forall₂ (fun x y => agree x y = .ok true) xs ys := by
  refine ⟨Heap.forall₂_of_all_agree, fun h => ?_⟩
  induction h with
  | nil => rfl
  | cons hfirst _ ih =>
      show (agree _ _ >>= _) = _
      rw [hfirst]
      exact ih

theorem entries_agree_iff {agree : Value → Value → Except Fault Bool} {other : Dict}
    {entries : List (Value × Value)} :
    Heap.entriesAgree agree other entries = .ok true ↔
      ∀ entry ∈ entries,
        ∃ value, other.get? entry.1 = some value ∧ agree value entry.2 = .ok true := by
  induction entries with
  | nil => exact ⟨fun _ => nofun, fun _ => rfl⟩
  | cons entry entries ih =>
      rw [List.forall_mem_cons]
      unfold Heap.entriesAgree
      cases hfound : other.get? entry.1 with
      | none => simp
      | some value =>
          simp only [Option.some.injEq, exists_eq_left']
          cases hsame : agree value entry.2 with
          | error fault => simp [bind, Except.bind]
          | ok same =>
              cases same with
              | false => simp [bind, Except.bind, pure, Except.pure]
              | true => simpa [bind, Except.bind] using ih

/-- Shapes are found equal if they are alike. -/
theorem compare_eq_true_iff {agree : Value → Value → Except Fault Bool} {s t : Shape} :
    s.compare agree t = .ok true ↔ s.Alike (fun x y => agree x y = .ok true) t := by
  constructor
  · intro h
    unfold compare at h
    split at h
    · split at h
      · cases h
      · exact .list (all_agree_iff.mp h)
    · exact .tuple (all_agree_iff.mp h)
    · split at h
      · cases h
      · rename_i hsize
        exact .dict (not_not.mp hsize) (entries_agree_iff.mp h)
    · simp only [Except.ok.injEq, Bool.and_eq_true, beq_iff_eq] at h
      obtain ⟨rfl, rfl⟩ := h
      exact .error _ _
    · exact .members (Except.ok.inj h)
    · simp only [Except.ok.injEq, beq_iff_eq] at h
      subst h
      exact .bytes _
    · exact .atom (Except.ok.inj h)
    · cases h
  · intro h
    cases h with
    | list h =>
        dsimp only [compare]
        rw [if_neg (not_not.mpr h.length_eq)]
        exact all_agree_iff.mpr h
    | tuple h => exact all_agree_iff.mpr h
    | dict hsize h =>
        dsimp only [compare]
        rw [if_neg (not_not.mpr hsize)]
        exact entries_agree_iff.mpr h
    | error kind arguments => simp [compare]
    | members h => exact congrArg _ h
    | bytes contents => simp [compare]
    | atom h => exact congrArg _ h

variable {R : Value → Value → Prop}

theorem forall₂_symm {xs ys : List Value} (h : List.Forall₂ R xs ys)
    (hR : ∀ x ∈ xs, ∀ y ∈ ys, R x y → R y x) : List.Forall₂ R ys xs := by
  induction h with
  | nil => exact .nil
  | cons hfirst _ ih =>
      refine .cons (hR _ List.mem_cons_self _ List.mem_cons_self hfirst) (ih ?_)
      exact fun x hx y hy => hR x (List.mem_cons_of_mem _ hx) y (List.mem_cons_of_mem _ hy)

theorem forall₂_trans {xs ys zs : List Value} (h : List.Forall₂ R xs ys)
    (h' : List.Forall₂ R ys zs)
    (hR : ∀ x ∈ xs, ∀ y ∈ ys, ∀ z ∈ zs, R x y → R y z → R x z) : List.Forall₂ R xs zs := by
  rw [List.forall₂_iff_get] at h h' ⊢
  refine ⟨h.1.trans h'.1, fun place hx hz => ?_⟩
  have hy : place < ys.length := h.1 ▸ hx
  exact hR _ (List.get_mem _ _) _ (List.get_mem _ _) _ (List.get_mem _ _) (h.2 place hx hy)
    (h'.2 place hy hz)

end Shape

/-! ## Equality -/

namespace Heap

open Relation

/-- No double and no complex number is reached from the value, from part to part. -/
def FloatFree (heap : Heap) (value : Value) : Prop :=
  ∀ part, ReflTransGen heap.HasPart value part → part.isFloating = false

/-- Whether the value is nested within some depth, without doubles and complex numbers. -/
def plainWithin (heap : Heap) : Nat → Value → Bool
  | 0, _ => false
  | depth + 1, value => !value.isFloating && (heap.parts value).all (heap.plainWithin depth)

theorem plain_within_succ_iff {heap : Heap} {depth : Nat} {value : Value} :
    heap.plainWithin (depth + 1) value = true ↔
      value.isFloating = false ∧ ∀ part ∈ heap.parts value, heap.plainWithin depth part = true := by
  simp [plainWithin]

theorem NestsWithin.of_plain {heap : Heap} {depth : Nat} {value : Value}
    (h : heap.plainWithin depth value = true) : heap.NestsWithin depth value := by
  induction depth generalizing value with
  | zero => cases h
  | succ depth ih => exact fun part hpart => ih ((plain_within_succ_iff.mp h).2 part hpart)

theorem FloatFree.of_plain {heap : Heap} {depth : Nat} {value : Value}
    (h : heap.plainWithin depth value = true) : heap.FloatFree value := by
  induction depth generalizing value with
  | zero => cases h
  | succ depth ih =>
      obtain ⟨hfloating, hparts⟩ := plain_within_succ_iff.mp h
      intro inner hinner
      obtain rfl | ⟨part, hpart, hrest⟩ := hinner.cases_head
      · exact hfloating
      · exact ih (hparts part hpart) inner hrest

/-- The values are equal, if only the limit on how deep values are nested is high enough. -/
def Equals (heap : Heap) (a b : Value) : Prop :=
  ∃ depth, heap.equalWithin depth a b = .ok true

/-- The values are the same mutable object, or equal immutable values of one type. -/
def Same (heap : Heap) (a b : Value) : Prop :=
  a.isMutable = true ∧ a = b ∨
    a.isMutable = false ∧ b.isMutable = false ∧ sameSort a b = true ∧ heap.Equals a b

variable {heap : Heap} {depth : Nat} {a b c x y value : Value}

/-- Of values without parts, the shape is the value. -/
theorem eq_of_shape_atom (h : heap.shape value = .atom a) : value = a ∧ a.isAtom = true := by
  cases value with
  | list | tuple | dict | error | set | frozenset | bytes | bytearray => cases h
  | _ =>
      cases h
      exact ⟨rfl, rfl⟩

/-- Values are equal if their shapes are alike, with parts that agree. -/
theorem equals_iff_alike :
    heap.Equals a b ↔
      ∃ depth, (heap.shape a).Alike (fun x y => heap.agree depth x y = .ok true)
        (heap.shape b) := by
  constructor
  · rintro ⟨depth, hequal⟩
    cases depth with
    | zero => cases hequal
    | succ depth =>
        rw [equal_within_succ, Shape.compare_eq_true_iff] at hequal
        exact ⟨depth, hequal⟩
  · rintro ⟨depth, halike⟩
    refine ⟨depth + 1, ?_⟩
    rwa [equal_within_succ, Shape.compare_eq_true_iff]

/-- A truth value is equal to a number if that is `1` or `0`. -/
theorem equals_bool_int_iff {flag : Bool} {n : Int} :
    heap.Equals (.bool flag) (.int n) ↔ n = if flag then 1 else 0 := by
  have hatom : (Value.bool flag).atomEqual (.int n) = true ↔ n = if flag then 1 else 0 := by
    rw [Value.atom_equal_iff rfl rfl]
    cases flag <;> simp [Value.identity, eq_comm]
  rw [equals_iff_alike, ← hatom]
  exact (exists_congr fun _ => Shape.alike_atom_iff).trans (exists_const Nat)

theorem equals_range_iff {first second : Range} :
    heap.Equals (.range first) (.range second) ↔ first.toList = second.toList := by
  rw [equals_iff_alike, ← Range.same_members_iff_to_list]
  exact (exists_congr fun _ => Shape.alike_atom_iff).trans (exists_const Nat)

theorem equals_bytes_bytearray_iff {contents : List UInt8} {id : ByteArrayId} :
    heap.Equals (.bytes contents) (.bytearray id) ↔ contents = heap.bytearray id := by
  rw [equals_iff_alike]
  exact (exists_congr fun _ => Shape.alike_bytes_iff).trans (exists_const Nat)

theorem equals_frozenset_set_iff {mark : Nat} {keys : List Value} {id : SetId} :
    heap.Equals (.frozenset mark keys) (.set id) ↔
      keys.length = (heap.set id).length ∧
        ∀ key ∈ keys, ∃ other ∈ heap.set id, key.sameKey other = true := by
  rw [equals_iff_alike, ← Keys.same_set_iff]
  exact (exists_congr fun _ => Shape.alike_members_iff).trans (exists_const Nat)

theorem agree_of_equal_within (h : heap.equalWithin depth x y = .ok true) :
    heap.agree depth x y = .ok true := by
  unfold agree
  split
  · rfl
  · exact h

/-- What a comparison within the limit answers is true without the limit. -/
theorem equals_iff_of_equal {result : Bool} (h : heap.equal a b = .ok result) :
    heap.Equals a b ↔ result = true := by
  constructor
  · rintro ⟨depth, hequal⟩
    have hfirst := equal_within_mono hequal (Nat.le_max_left depth heap.nestingLimit)
    have hsecond := equal_within_mono h (Nat.le_max_right depth heap.nestingLimit)
    cases hfirst.symm.trans hsecond
    rfl
  · rintro rfl
    exact ⟨heap.nestingLimit, h⟩

/-- A comparison has an answer, or both values are nested too deeply. -/
theorem equal_within_error {fault : Fault} (h : heap.equalWithin depth a b = .error fault) :
    fault = .recursion ∧ ¬heap.NestsWithin depth a ∧ ¬heap.NestsWithin depth b := by
  have hnests : ¬(heap.NestsWithin depth a ∨ heap.NestsWithin depth b) := by
    intro hnests
    obtain ⟨result, hresult⟩ := exists_equal_within hnests
    cases h.symm.trans hresult
  exact ⟨equal_within_fault h, not_or.mp hnests⟩

theorem equal_error {fault : Fault} (h : heap.equal a b = .error fault) :
    fault = .recursion ∧ ¬heap.NestsWithin heap.nestingLimit a ∧
      ¬heap.NestsWithin heap.nestingLimit b :=
  equal_within_error h

theorem identical_iff (ha : a.isMutable = true) : a.isIdentical b = true ↔ a = b := by
  constructor
  · intro h
    refine Value.eq_of_identical ?_ h
    cases a <;> first | rfl | cases ha
  · rintro rfl
    cases a <;> first | exact beq_self_eq_true _ | cases ha

/-- What `is` answers is true without the limit. -/
theorem same_iff_of_same {result : Bool} (h : heap.same a b = .ok result) :
    heap.Same a b ↔ result = true := by
  unfold Same
  unfold same at h
  split at h
  · rename_i hmutable
    cases h
    rw [Bool.and_eq_true, Bool.and_eq_true]
    cases ha : a.isMutable with
    | true =>
        rw [identical_iff ha]
        constructor
        · rintro (⟨-, rfl⟩ | ⟨hfalse, -⟩)
          · exact ⟨⟨rfl, ha⟩, rfl⟩
          · cases hfalse
        · rintro ⟨-, rfl⟩
          exact .inl ⟨rfl, rfl⟩
    | false =>
        rw [ha, Bool.false_or] at hmutable
        simp [hmutable]
  · rename_i himmutable
    rw [Bool.or_eq_true, not_or, Bool.not_eq_true, Bool.not_eq_true] at himmutable
    split at h
    · rename_i hsort
      rw [← equals_iff_of_equal h]
      simp [himmutable, hsort]
    · rename_i hsort
      cases h
      simp [himmutable, hsort]

theorem same_sort_refl (h : a.isMutable = false) : sameSort a a = true := by
  cases a <;> first | rfl | cases h

theorem same_sort_symm (h : sameSort a b = true) : sameSort b a = true := by
  unfold sameSort at h
  split at h <;> first | rfl | cases h

theorem same_sort_trans (h : sameSort a b = true) (h' : sameSort b c = true) :
    sameSort a c = true := by
  unfold sameSort at h
  split at h
  case h_19 => cases h
  all_goals cases c <;> first | rfl | cases h'

theorem same_error {fault : Fault} (h : heap.same a b = .error fault) :
    fault = .recursion ∧ ¬heap.NestsWithin heap.nestingLimit a ∧
      ¬heap.NestsWithin heap.nestingLimit b := by
  unfold same at h
  split at h
  · cases h
  · split at h
    · exact equal_error h
    · cases h

end Heap

/-! ## What the operators answer -/

namespace BinaryOperator

/-- The operator answers a question about two values as it is true, unless both values are nested
more deeply than the machine can follow. -/
def Answers (operator : BinaryOperator) (heap : Heap) (a b : Value) (truth : Prop) : Prop :=
  (∃ result, operator.apply a b heap = .ok (.bool result, heap) ∧ (result = true ↔ truth)) ∨
    operator.apply a b heap = .error (.fault .recursion) ∧
      ¬heap.NestsWithin heap.nestingLimit a ∧ ¬heap.NestsWithin heap.nestingLimit b

section Question

variable {operator : BinaryOperator} {heap : Heap} {a b : Value}
  {question : Heap → Except Fault Bool} {change : Bool → Bool}

theorem operation_of_question
    (hrun : operator.operation a b = do
      let result ← do Action.ofFault (question (← get))
      return .bool (change result)) :
    operator.operation a b heap =
      (Action.ofFault (question heap) >>= fun result => pure (.bool (change result))) heap := by
  rw [hrun]
  rfl

theorem Answers.of_question {truth : Prop}
    (hrun : operator.operation a b = do
      let result ← do Action.ofFault (question (← get))
      return .bool (change result))
    (hok : ∀ result, question heap = .ok result → (change result = true ↔ truth))
    (herror : ∀ fault, question heap = .error fault →
      fault = .recursion ∧ ¬heap.NestsWithin heap.nestingLimit a ∧
        ¬heap.NestsWithin heap.nestingLimit b) :
    operator.Answers heap a b truth := by
  unfold Answers apply
  rw [operation_of_question hrun]
  cases hquestion : question heap with
  | ok result => exact .inl ⟨change result, rfl, hok result hquestion⟩
  | error fault =>
      obtain ⟨rfl, hdeep⟩ := herror fault hquestion
      exact .inr ⟨rfl, hdeep⟩

theorem equal_apply {result : Bool} (h : heap.equal a b = .ok result) :
    equal.apply a b heap = .ok (.bool result, heap) := by
  have hrun : equal.operation a b = do
      let result ← do Action.ofFault ((← get).equal a b)
      return .bool result := rfl
  rw [apply, operation_of_question hrun, h]
  rfl

theorem not_equal_apply {result : Bool} (h : heap.equal a b = .ok result) :
    notEqual.apply a b heap = .ok (.bool !result, heap) := by
  have hrun : notEqual.operation a b = do
      let result ← do Action.ofFault ((← get).equal a b)
      return .bool !result := rfl
  rw [apply, operation_of_question hrun, h]
  rfl

end Question

variable (heap : Heap) (a b : Value)

theorem equal_answers : BinaryOperator.equal.Answers heap a b (heap.Equals a b) := by
  have hrun : BinaryOperator.equal.operation a b = do
      let result ← do Action.ofFault ((← get).equal a b)
      return .bool result := rfl
  exact .of_question hrun (fun _ h => (Heap.equals_iff_of_equal h).symm) fun _ => Heap.equal_error

theorem not_equal_answers : notEqual.Answers heap a b (¬heap.Equals a b) := by
  have hrun : notEqual.operation a b = do
      let result ← do Action.ofFault ((← get).equal a b)
      return .bool !result := rfl
  refine .of_question hrun (fun result h => ?_) fun _ => Heap.equal_error
  rw [Heap.equals_iff_of_equal h, Bool.not_eq_true', Bool.not_eq_true]

theorem is_answers : BinaryOperator.is.Answers heap a b (heap.Same a b) := by
  have hrun : BinaryOperator.is.operation a b = do
      let result ← do Action.ofFault ((← get).same a b)
      return .bool result := rfl
  exact .of_question hrun (fun _ h => (Heap.same_iff_of_same h).symm) fun _ => Heap.same_error

theorem is_not_answers : isNot.Answers heap a b (¬heap.Same a b) := by
  have hrun : isNot.operation a b = do
      let result ← do Action.ofFault ((← get).same a b)
      return .bool !result := rfl
  refine .of_question hrun (fun result h => ?_) fun _ => Heap.same_error
  rw [Heap.same_iff_of_same h, Bool.not_eq_true', Bool.not_eq_true]

end BinaryOperator

end Script
