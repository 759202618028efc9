import Mathlib.Data.Fintype.EquivFin
import Script.Heap.Equality
import Script.Proofs.Number.Exact

/-!
# When keys are the same

Values without parts have an identity: they are the same key exactly if they have the same one
(`atom_same_iff`). That makes sameness of keys transitive, and symmetric for values whose frozen
sets hold pairwise different keys: if every key of a set is in another set of the same size, then
all keys of that one are met. Keys that the language calls equal are the same
(`Heap.same_key_of_equal`).
-/

namespace Script

namespace Value

/-- What a value without parts is compared by. -/
inductive Identity where
  | null
  | notImplemented
  | ellipsis
  | number (real imaginary : Number.Exact)
  | nan (mark : Nat)
  | complexNaN (mark : Nat)
  | str (value : String)
  | bytes (value : List UInt8)
  | range (bounds : Nat × Int × Int)
  | bytearray (id : Nat)
  | list (id : Nat)
  | dict (id : Nat)
  | set (id : Nat)
  | function (id : Nat)
  | classObject (id : Nat)
  | object (id : Nat)
  | error (id : Nat)
  | boundMethod (mark : Nat)
  | builtinMethod (mark : Nat)
  | builtin (function : BuiltinFunction)
  | enumVariant (enumName variant : String)
  | compound

/-- The identity is that of a number, or of what is not a number. -/
def Identity.isNumeric : Identity → Bool
  | .number _ _ | .nan _ | .complexNaN _ => true
  | _ => false

end Value

/-- What a range is compared by: its start counts only if it has members, and its step only if it
has two. -/
def Range.identity (range : Range) : Nat × Int × Int :=
  (range.length, if range.length = 0 then 0 else range.start,
    if range.length ≤ 1 then 0 else range.step)

theorem Range.same_members_iff (first second : Range) :
    first.sameMembers second = true ↔ first.identity = second.identity := by
  unfold sameMembers identity
  simp only [Bool.and_eq_true, Bool.or_eq_true, beq_iff_eq, Prod.mk.injEq]
  constructor
  · rintro ⟨hlength, hempty | ⟨hstart, hone | hstep⟩⟩
    · simp [← hlength, hempty]
    · simp [← hlength, hone, hstart]
    · simp [← hlength, hstart, hstep]
  · rintro ⟨hlength, hstart, hstep⟩
    refine ⟨hlength, ?_⟩
    rw [← hlength] at hstart hstep
    by_cases hempty : first.length = 0
    · exact .inl hempty
    · rw [if_neg hempty, if_neg hempty] at hstart
      refine .inr ⟨hstart, ?_⟩
      by_cases hone : first.length = 1
      · exact .inl hone
      · rw [if_neg (by omega), if_neg (by omega)] at hstep
        exact .inr hstep

namespace Value

open Number (Numeric)

/-- What a value without parts is compared by. -/
def identity : Value → Identity
  | .null => .null
  | .notImplemented => .notImplemented
  | .ellipsis => .ellipsis
  | .bool b => .number (.finite (if b then 1 else 0 : Int)) (.finite 0)
  | .int n => .number (.finite n) (.finite 0)
  | .float x =>
    match Number.number? x.value with
    | some number => .number number (.finite 0)
    | none => .nan x.mark
  | .complex z =>
    match Number.number? z.re, Number.number? z.im with
    | some real, some imaginary => .number real imaginary
    | _, _ => .complexNaN z.mark
  | .str s => .str s
  | .bytes contents => .bytes contents
  | .bytearray id => .bytearray id
  | .list id => .list id
  | .dict id => .dict id
  | .set id => .set id
  | .range bounds => .range bounds.identity
  | .function id => .function id
  | .boundMethod mark _ _ => .boundMethod mark
  | .builtin name => .builtin name
  | .builtinMethod mark _ _ => .builtinMethod mark
  | .classObject id => .classObject id
  | .object id => .object id
  | .enumVariant enumName variant => .enumVariant enumName variant
  | .error id => .error id
  | .tuple _ _ | .frozenset _ _ => .compound

/-- The value is no tuple and no frozen set. -/
def isAtom : Value → Bool
  | .tuple _ _ | .frozenset _ _ => false
  | _ => true

/-- The number that a value stands for shows in its identity. -/
theorem identity_eq_number_iff (value : Value) (real imaginary : Number.Exact) :
    value.identity = .number real imaginary ↔
      ∃ number, value.numeric? = some number ∧ number.number? = some (real, imaginary) := by
  cases value with
  | bool b => simp [identity, numeric?, Numeric.number?, Numeric.real?]
  | int n => simp [identity, numeric?, Numeric.number?, Numeric.real?]
  | float x =>
      cases hx : Number.number? x.value <;>
        simp [identity, numeric?, Numeric.number?, Numeric.real?, hx]
  | complex z =>
      cases hre : Number.number? z.re <;> cases him : Number.number? z.im <;>
        simp [identity, numeric?, Numeric.number?, hre, him]
  | _ => simp [identity, numeric?]

/-- Numbers of all sorts are equal if their identities are the same number. -/
theorem numeric_equal_iff (a b : Value) :
    a.numericEqual b = true ↔
      ∃ real imaginary,
        a.identity = .number real imaginary ∧ b.identity = .number real imaginary := by
  simp only [identity_eq_number_iff]
  unfold numericEqual
  split
  · rename_i m n hm hn
    simp only [Numeric.equal_iff, hm, hn, Option.some.injEq, exists_eq_left', Prod.exists]
  · rename_i hnone
    simp only [Bool.false_eq_true, false_iff]
    rintro ⟨real, imaginary, ⟨m, hm, -⟩, n, hn, -⟩
    exact hnone m n hm hn

theorem identity_eq_nan_iff (value : Value) (mark : Nat) :
    value.identity = .nan mark ↔ ∃ x, value = .float x ∧ x.value.isNaN = true ∧ x.mark = mark := by
  simp only [Number.isNaN_iff]
  cases value with
  | float x => cases hx : Number.number? x.value <;> simp [identity, hx]
  | complex z =>
      cases hre : Number.number? z.re <;> cases him : Number.number? z.im <;>
        simp [identity, hre, him]
  | _ => simp [identity]

theorem identity_eq_complex_nan_iff (value : Value) (mark : Nat) :
    value.identity = .complexNaN mark ↔
      ∃ z, value = .complex z ∧ (z.re.isNaN || z.im.isNaN) = true ∧ z.mark = mark := by
  simp only [Bool.or_eq_true, Number.isNaN_iff]
  cases value with
  | float x => cases hx : Number.number? x.value <;> simp [identity, hx]
  | complex z =>
      cases hre : Number.number? z.re <;> cases him : Number.number? z.im <;>
        simp [identity, hre, him]
  | _ => simp [identity]

/-- What is not a number is the same if it bears the same mark. -/
theorem same_nan_iff (a b : Value) :
    a.sameNaN b = true ↔
      (∃ mark, a.identity = .nan mark ∧ b.identity = .nan mark) ∨
      ∃ mark, a.identity = .complexNaN mark ∧ b.identity = .complexNaN mark := by
  simp only [identity_eq_nan_iff, identity_eq_complex_nan_iff]
  constructor
  · intro h
    unfold sameNaN at h
    split at h
    · rename_i x y
      simp only [Bool.and_eq_true, beq_iff_eq] at h
      obtain ⟨⟨hmark, hx⟩, hy⟩ := h
      exact .inl ⟨x.mark, ⟨x, rfl, hx, rfl⟩, y, rfl, hy, hmark.symm⟩
    · rename_i x y
      simp only [Bool.and_eq_true, beq_iff_eq] at h
      obtain ⟨⟨hmark, hx⟩, hy⟩ := h
      exact .inr ⟨x.mark, ⟨x, rfl, hx, rfl⟩, y, rfl, hy, hmark.symm⟩
    · cases h
  · rintro (⟨_, ⟨x, rfl, hx, rfl⟩, y, rfl, hy, hmark⟩ | ⟨_, ⟨x, rfl, hx, rfl⟩, y, rfl, hy, hmark⟩)
    all_goals simp only [sameNaN, hx, hy, hmark, beq_self_eq_true, Bool.and_true]

theorem identity_isNumeric (value : Value) :
    value.identity.isNumeric = value.numeric?.isSome := by
  cases value with
  | float x =>
      cases hx : Number.number? x.value <;> simp [identity, numeric?, hx, Identity.isNumeric]
  | complex z =>
      cases hre : Number.number? z.re <;> cases him : Number.number? z.im <;>
        simp [identity, numeric?, hre, him, Identity.isNumeric]
  | _ => rfl

/-- Numbers that are equal are equal values. -/
theorem atom_equal_of_numeric {a b : Value} (h : a.numericEqual b = true) :
    a.atomEqual b = true := by
  unfold atomEqual
  split
  case h_19 => exact h
  all_goals cases h

/-- Tuples and frozen sets are never equal as values without parts. -/
theorem isAtom_of_atom_equal {a b : Value} (h : a.atomEqual b = true) : a.isAtom = true := by
  cases a with
  | tuple mark items => cases b <;> cases h
  | frozenset mark keys => cases b <;> cases h
  | _ => rfl

/-- Values that are no numbers are equal if they have the same identity. -/
theorem atom_equal_of_identity {a b : Value} (h : a.isAtom = true) (hnumber : a.numeric? = none)
    (hidentity : a.identity = b.identity) : a.atomEqual b = true := by
  have hnumber' : b.numeric? = none := by
    rw [← Option.not_isSome_iff_eq_none, ← identity_isNumeric, ← hidentity, identity_isNumeric,
      hnumber]
    decide
  cases a <;> cases hnumber <;> cases b <;> cases hnumber' <;>
    simp_all [identity, atomEqual, isAtom, Range.same_members_iff]

/-- Values without parts are the same key if they have the same identity. -/
theorem atom_same_iff {a b : Value} (h : a.isAtom = true) :
    (a.atomEqual b || a.sameNaN b) = true ↔ a.identity = b.identity := by
  rw [Bool.or_eq_true]
  constructor
  · rintro (hequal | hnan)
    · unfold atomEqual at hequal
      split at hequal
      case h_19 =>
        obtain ⟨real, imaginary, ha, hb⟩ := (numeric_equal_iff a b).mp hequal
        rw [ha, hb]
      all_goals simp_all [identity, Range.same_members_iff]
    · obtain ⟨mark, ha, hb⟩ | ⟨mark, ha, hb⟩ := (same_nan_iff a b).mp hnan
      · rw [ha, hb]
      · rw [ha, hb]
  · intro hidentity
    cases hnumber : a.identity with
    | number real imaginary =>
        refine .inl (atom_equal_of_numeric ((numeric_equal_iff a b).mpr ?_))
        exact ⟨real, imaginary, hnumber, hidentity ▸ hnumber⟩
    | nan mark => exact .inr ((same_nan_iff a b).mpr (.inl ⟨mark, hnumber, hidentity ▸ hnumber⟩))
    | complexNaN mark =>
        exact .inr ((same_nan_iff a b).mpr (.inr ⟨mark, hnumber, hidentity ▸ hnumber⟩))
    | _ =>
        refine .inl (atom_equal_of_identity h ?_ hidentity)
        rw [← Option.not_isSome_iff_eq_none, ← identity_isNumeric, hnumber]
        exact Bool.false_ne_true

/-- What holds of values without parts, and passes from parts to tuples and frozen sets, holds of
all values. -/
theorem inductionOnParts {motive : Value → Prop}
    (tuple : ∀ mark items, (∀ item ∈ items, motive item) → motive (.tuple mark items))
    (frozenset : ∀ mark keys, (∀ key ∈ keys, motive key) → motive (.frozenset mark keys))
    (atom : ∀ value, value.isAtom = true → motive value) (value : Value) : motive value := by
  match value with
  | .tuple mark items =>
      exact tuple mark items fun item _ => inductionOnParts tuple frozenset atom item
  | .frozenset mark keys =>
      exact frozenset mark keys fun key _ => inductionOnParts tuple frozenset atom key
  | .null | .notImplemented | .ellipsis | .bool _ | .int _ | .float _ | .complex _ | .str _
  | .bytes _ | .bytearray _ | .list _ | .dict _ | .set _ | .range _ | .function _
  | .boundMethod _ _ _ | .builtin _ | .builtinMethod _ _ _ | .classObject _ | .object _
  | .enumVariant _ _ | .error _ => exact atom _ rfl
termination_by value

/-! ## Sameness of keys, one shape at a time -/

theorem same_key_atom_iff {a b : Value} (h : a.isAtom = true) :
    a.sameKey b = true ↔ a.identity = b.identity := by
  rw [← atom_same_iff h]
  cases a <;> first | rfl | cases h

/-- Only tuples and frozen sets have no identity of their own. -/
theorem identity_eq_compound_iff (value : Value) :
    value.identity = .compound ↔ value.isAtom = false := by
  cases value with
  | float x => cases hx : Number.number? x.value <;> simp [identity, isAtom, hx]
  | complex z =>
      cases hre : Number.number? z.re <;> cases him : Number.number? z.im <;>
        simp [identity, isAtom, hre, him]
  | _ => simp [identity, isAtom]

theorem isAtom_of_identity {a b : Value} (h : a.isAtom = true)
    (hidentity : a.identity = b.identity) : b.isAtom = true := by
  rw [← Bool.not_eq_false, ← identity_eq_compound_iff, ← hidentity, identity_eq_compound_iff, h]
  decide

theorem same_keys_iff (xs ys : List Value) :
    sameKeys xs ys = true ↔ List.Forall₂ (fun x y => x.sameKey y = true) xs ys := by
  induction xs generalizing ys with
  | nil => cases ys <;> simp [sameKeys]
  | cons x xs ih => cases ys <;> simp [sameKeys, ih]

theorem keys_within_iff (xs ys : List Value) :
    keysWithin xs ys = true ↔ ∀ x ∈ xs, ∃ y ∈ ys, x.sameKey y = true := by
  induction xs with
  | nil => simp [keysWithin]
  | cons x xs ih => simp [keysWithin, ih]

/-- A tuple is the same key as a tuple of the same keys. -/
theorem same_key_tuple_iff (mark : Nat) (xs : List Value) (b : Value) :
    (tuple mark xs).sameKey b = true ↔
      ∃ mark' ys, b = .tuple mark' ys ∧ List.Forall₂ (fun x y => x.sameKey y = true) xs ys := by
  cases b <;> simp [sameKey, same_keys_iff]

/-- A frozen set is the same key as one of the same size in which all its keys are. -/
theorem same_key_frozenset_iff (mark : Nat) (xs : List Value) (b : Value) :
    (frozenset mark xs).sameKey b = true ↔
      ∃ mark' ys, b = .frozenset mark' ys ∧ xs.length = ys.length ∧
        ∀ x ∈ xs, ∃ y ∈ ys, x.sameKey y = true := by
  cases b <;> simp [sameKey, keys_within_iff]

/-! ## Sameness of keys is transitive and symmetric -/

theorem same_key_trans {a b c : Value} (h : a.sameKey b = true) (h' : b.sameKey c = true) :
    a.sameKey c = true := by
  induction a using inductionOnParts generalizing b c with
  | tuple mark xs ih =>
      obtain ⟨mark', ys, rfl, hys⟩ := (same_key_tuple_iff mark xs b).mp h
      obtain ⟨mark'', zs, rfl, hzs⟩ := (same_key_tuple_iff mark' ys c).mp h'
      refine (same_key_tuple_iff mark xs _).mpr ⟨mark'', zs, rfl, ?_⟩
      rw [List.forall₂_iff_get] at hys hzs ⊢
      refine ⟨hys.1.trans hzs.1, fun i hx hz => ?_⟩
      have hy : i < ys.length := hys.1 ▸ hx
      exact ih _ (List.getElem_mem hx) (hys.2 i hx hy) (hzs.2 i hy hz)
  | frozenset mark xs ih =>
      obtain ⟨mark', ys, rfl, hlength, hys⟩ := (same_key_frozenset_iff mark xs b).mp h
      obtain ⟨mark'', zs, rfl, hlength', hzs⟩ := (same_key_frozenset_iff mark' ys c).mp h'
      refine (same_key_frozenset_iff mark xs _).mpr ⟨mark'', zs, rfl, hlength.trans hlength', ?_⟩
      intro x hx
      obtain ⟨y, hy, hxy⟩ := hys x hx
      obtain ⟨z, hz, hyz⟩ := hzs y hy
      exact ⟨z, hz, ih x hx hxy hyz⟩
  | atom a hatom =>
      rw [same_key_atom_iff hatom] at h ⊢
      rw [same_key_atom_iff (isAtom_of_identity hatom h)] at h'
      exact h.trans h'

end Value

/-- Pairwise different values that can be keys. -/
structure Keys.Proper (keys : List Value) : Prop where
  hashable : ∀ key ∈ keys, key.isHashable = true
  distinct : keys.Pairwise fun earlier later => later.sameKey earlier = false

/-- The classes that values may name. -/
class KnownClasses where
  known : ClassId → Prop

/-- All classes are known. -/
abbrev KnownClasses.all : KnownClasses :=
  ⟨fun _ => True⟩

namespace Value

variable [KnownClasses]

mutual

/-- Every frozen set in the value holds pairwise different values that can be keys, and every class
in it is known. -/
def Sound : Value → Prop
  | .tuple _ items => AllSound items
  | .frozenset _ keys => Keys.Proper keys ∧ AllSound keys
  | .builtinMethod _ owner _ => owner.Sound
  | .classObject id => KnownClasses.known id
  | _ => True

/-- All the values are sound. -/
def AllSound : List Value → Prop
  | [] => True
  | item :: items => item.Sound ∧ AllSound items

end

theorem all_sound_iff (items : List Value) : AllSound items ↔ ∀ item ∈ items, item.Sound := by
  induction items with
  | nil => simp [AllSound]
  | cons item items ih => simp [AllSound, ih]

theorem sound_tuple_iff (mark : Nat) (items : List Value) :
    (tuple mark items).Sound ↔ ∀ item ∈ items, item.Sound := by
  rw [Sound, all_sound_iff]

theorem sound_frozenset_iff (mark : Nat) (keys : List Value) :
    (frozenset mark keys).Sound ↔ Keys.Proper keys ∧ ∀ key ∈ keys, key.Sound := by
  rw [Sound, all_sound_iff]

omit [KnownClasses] in
/-- If each of some pairwise different keys is among as many others, each of those is met: no
other can be met twice. -/
theorem keys_met {xs ys : List Value} (hdistinct : Keys.Proper xs) (hlength : xs.length = ys.length)
    (hwithin : ∀ x ∈ xs, ∃ y ∈ ys, x.sameKey y = true)
    (hsymm : ∀ x ∈ xs, ∀ y ∈ ys, x.sameKey y = true → y.sameKey x = true) :
    ∀ y ∈ ys, ∃ x ∈ xs, y.sameKey x = true := by
  have hplace (i : Fin xs.length) : ∃ j : Fin ys.length, (xs.get i).sameKey (ys.get j) = true := by
    obtain ⟨y, hy, hsame⟩ := hwithin (xs.get i) (List.get_mem xs i)
    obtain ⟨j, rfl⟩ := List.mem_iff_get.mp hy
    exact ⟨j, hsame⟩
  choose place hsame using hplace
  have hback (i : Fin xs.length) : (ys.get (place i)).sameKey (xs.get i) = true :=
    hsymm _ (List.get_mem xs i) _ (List.get_mem ys _) (hsame i)
  have hinjective : Function.Injective place := by
    intro i j hij
    have hne : ∀ i j : Fin xs.length, i < j → place i ≠ place j := by
      intro i j hlt heq
      have hdiffers := List.pairwise_iff_get.mp hdistinct.distinct i j hlt
      have hsame : (xs.get j).sameKey (xs.get i) = true :=
        same_key_trans (hsame j) (heq ▸ hback i)
      rw [hsame] at hdiffers
      cases hdiffers
    rcases lt_trichotomy i j with hlt | heq | hgt
    · exact absurd hij (hne i j hlt)
    · exact heq
    · exact absurd hij.symm (hne j i hgt)
  have hcard : Fintype.card (Fin xs.length) = Fintype.card (Fin ys.length) := by
    rw [Fintype.card_fin, Fintype.card_fin, hlength]
  have hsurjective : Function.Surjective place :=
    ((Fintype.bijective_iff_injective_and_card place).mpr ⟨hinjective, hcard⟩).surjective
  intro y hy
  obtain ⟨j, rfl⟩ := List.mem_iff_get.mp hy
  obtain ⟨i, rfl⟩ := hsurjective j
  exact ⟨xs.get i, List.get_mem xs i, hback i⟩

theorem same_key_symm {a b : Value} (ha : a.Sound) (hb : b.Sound) (h : a.sameKey b = true) :
    b.sameKey a = true := by
  induction a using inductionOnParts generalizing b with
  | tuple mark xs ih =>
      obtain ⟨mark', ys, rfl, hys⟩ := (same_key_tuple_iff mark xs b).mp h
      rw [sound_tuple_iff] at ha hb
      refine (same_key_tuple_iff mark' ys _).mpr ⟨mark, xs, rfl, ?_⟩
      rw [List.forall₂_iff_get] at hys ⊢
      refine ⟨hys.1.symm, fun i hy hx => ?_⟩
      have hxmem := List.getElem_mem hx
      exact ih _ hxmem (ha _ hxmem) (hb _ (List.getElem_mem hy)) (hys.2 i hx hy)
  | frozenset mark xs ih =>
      obtain ⟨mark', ys, rfl, hlength, hys⟩ := (same_key_frozenset_iff mark xs b).mp h
      rw [sound_frozenset_iff] at ha hb
      refine (same_key_frozenset_iff mark' ys _).mpr ⟨mark, xs, rfl, hlength.symm, ?_⟩
      refine keys_met ha.1 hlength hys fun x hx y hy hsame => ?_
      exact ih x hx (ha.2 x hx) (hb.2 y hy) hsame
  | atom a hatom =>
      rw [same_key_atom_iff hatom] at h
      rw [same_key_atom_iff (isAtom_of_identity hatom h)]
      exact h.symm

end Value

namespace Heap

theorem hashable_items_iff (items : List Value) :
    Value.areHashable items = true ↔ ∀ item ∈ items, item.isHashable = true := by
  induction items with
  | nil => simp [Value.areHashable]
  | cons item items ih => simp [Value.areHashable, ih]

/-- Possible keys that are identical are what is not a number. -/
theorem same_key_of_identical {a b : Value} (ha : a.isHashable = true)
    (h : a.isIdentical b = true) : a.sameKey b = true := by
  unfold Value.isIdentical at h
  split at h
  case h_7 =>
    have hatom : a.isAtom = true := by
      cases a <;> first | rfl | cases h
    rw [Value.same_key_atom_iff hatom, ← Value.atom_same_iff hatom, h, Bool.or_true]
  all_goals cases ha

theorem frozenset_of_members {heap : Heap} {value : Value} {keys : List Value}
    (hvalue : value.isHashable = true) (h : heap.members? value = some keys) :
    ∃ mark, value = .frozenset mark keys := by
  unfold members? at h
  split at h
  · cases hvalue
  · rename_i mark keys
    cases h
    exact ⟨mark, rfl⟩
  · cases h

theorem bytes_of_bytes {heap : Heap} {value : Value} {contents : List UInt8}
    (hvalue : value.isHashable = true) (h : heap.bytes? value = some contents) :
    value = .bytes contents := by
  unfold bytes? at h
  split at h
  · cases h
    rfl
  · cases hvalue
  · cases h

/-- Lists that agree have the same length and agree at every place. -/
theorem forall₂_of_all_agree {agree : Value → Value → Except Fault Bool} {xs ys : List Value}
    (h : allAgree agree xs ys = .ok true) :
    List.Forall₂ (fun x y => agree x y = .ok true) xs ys := by
  induction xs generalizing ys with
  | nil =>
      cases ys with
      | nil => exact .nil
      | cons y ys => cases h
  | cons x xs ih =>
      cases ys with
      | nil => cases h
      | cons y ys =>
          change (agree x y >>= fun same =>
            if same then allAgree agree xs ys else pure false) = _ at h
          cases hagree : agree x y with
          | error fault =>
              rw [hagree] at h
              cases h
          | ok same =>
              rw [hagree] at h
              cases same with
              | false => cases h
              | true => exact .cons hagree (ih h)

/-- Possible keys that are equal are the same key. -/
theorem same_key_of_equal_within {heap : Heap} {depth : Nat} {a b : Value}
    (ha : a.isHashable = true) (hb : b.isHashable = true)
    (h : heap.equalWithin depth a b = .ok true) : a.sameKey b = true := by
  induction depth generalizing a b with
  | zero => cases h
  | succ depth ih =>
      unfold equalWithin at h
      dsimp only at h
      split at h
      · cases ha
      · rename_i mark xs mark' ys
        rw [Value.isHashable, hashable_items_iff] at ha hb
        refine (Value.same_key_tuple_iff mark xs _).mpr ⟨mark', ys, rfl, ?_⟩
        have hagree := forall₂_of_all_agree h
        rw [List.forall₂_iff_get] at hagree ⊢
        refine ⟨hagree.1, fun i hx hy => ?_⟩
        have hsame := hagree.2 i hx hy
        split at hsame
        · rename_i hidentical
          exact same_key_of_identical (ha _ (List.getElem_mem hx)) hidentical
        · exact ih (ha _ (List.getElem_mem hx)) (hb _ (List.getElem_mem hy)) hsame
      · cases ha
      · cases ha
      · rename_i hlists htuples hdicts herrors
        split at h
        · rename_i keys others hkeys hothers
          obtain ⟨mark, rfl⟩ := frozenset_of_members ha hkeys
          obtain ⟨mark', rfl⟩ := frozenset_of_members hb hothers
          refine (Value.same_key_frozenset_iff mark keys _).mpr ⟨mark', others, rfl, ?_⟩
          simpa [Keys.sameSet, Keys.subset, Keys.mem] using h
        · have hequal : a.atomEqual b = true := by
            split at h
            · rename_i left right hleft hright
              obtain rfl := bytes_of_bytes ha hleft
              obtain rfl := bytes_of_bytes hb hright
              simpa [Value.atomEqual] using h
            · simpa using h
          have hatom := Value.isAtom_of_atom_equal hequal
          rw [Value.same_key_atom_iff hatom, ← Value.atom_same_iff hatom, hequal, Bool.true_or]

/-- Possible keys that are equal are the same key. -/
theorem same_key_of_equal {heap : Heap} {a b : Value} (ha : a.isHashable = true)
    (hb : b.isHashable = true) (h : heap.equal a b = .ok true) : a.sameKey b = true :=
  same_key_of_equal_within ha hb h

end Heap

end Script
