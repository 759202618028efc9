import Mathlib.Data.List.Forall2
import Mathlib.Data.List.Perm.Basic
import Script.Proofs.Heap.Room

/-!
# Texts without the order of sets

The members of sets and frozen sets are kept in some order, which is nothing that a program can
see in a text. `Value.Reordered` relates values that are the same but for the order of the members
of frozen sets, at any depth, and `Heap.Reordered` relates heaps that are the same but for the order
of the members of sets and frozen sets. Layouts that are the same but for such orders
(`Layout.Reordered`) give the same text, because the texts of members are sorted.
-/

namespace Script

open Heap (sortTexts)

/-! ## Computations with the same results -/

/-- The computations give the same result if they give one. Their faults may differ. -/
def SameResult {α : Type} (first second : Except Fault α) : Prop :=
  ∀ result, first = .ok result ↔ second = .ok result

namespace SameResult

variable {α β γ : Type}

theorem refl (first : Except Fault α) : SameResult first first :=
  fun _ => Iff.rfl

theorem trans {first second third : Except Fault α} (h : SameResult first second)
    (h' : SameResult second third) : SameResult first third :=
  fun result => (h result).trans (h' result)

theorem bind {first second : Except Fault α} {next : α → Except Fault β}
    {next' : α → Except Fault β} (h : SameResult first second)
    (hnext : ∀ result, SameResult (next result) (next' result)) :
    SameResult (first >>= next) (second >>= next') := by
  intro result
  constructor
  · intro hrun
    obtain ⟨middle, hfirst, hrest⟩ := bind_eq_ok hrun
    rw [(h middle).mp hfirst]
    exact (hnext middle result).mp hrest
  · intro hrun
    obtain ⟨middle, hsecond, hrest⟩ := bind_eq_ok hrun
    rw [(h middle).mpr hsecond]
    exact (hnext middle result).mpr hrest

theorem mapM {f : α → Except Fault γ} {g : β → Except Fault γ} {xs : List α} {ys : List β}
    (h : List.Forall₂ (fun x y => SameResult (f x) (g y)) xs ys) :
    SameResult (xs.mapM f) (ys.mapM g) := by
  induction h with
  | nil => exact .refl _
  | cons hfirst _ ih =>
      rw [List.mapM_cons, List.mapM_cons]
      exact hfirst.bind fun _ => ih.bind fun _ => .refl _

end SameResult

theorem mapM_ok_iff {ε α β : Type} {f : α → Except ε β} {xs : List α} {ys : List β} :
    xs.mapM f = .ok ys ↔ List.Forall₂ (fun x y => f x = .ok y) xs ys := by
  constructor
  · intro h
    induction xs generalizing ys with
    | nil =>
        cases h
        exact .nil
    | cons x xs ih =>
        rw [List.mapM_cons] at h
        obtain ⟨y, hfirst, h⟩ := bind_eq_ok h
        obtain ⟨rest, hrest, h⟩ := bind_eq_ok h
        cases h
        exact .cons hfirst (ih hrest)
  · intro h
    induction h with
    | nil => rfl
    | cons hfirst _ ih =>
        rw [List.mapM_cons, hfirst, ih]
        rfl

/-! ## Layouts -/

namespace Layout

/-- The layouts are the same but for parts that are related in some way and for the order of the
members of sets. -/
inductive Reordered (R : Value → Value → Prop) : Layout → Layout → Prop where
  | plain (text : Except Fault String) : Reordered R (.plain text) (.plain text)
  | row (finish : List String → String) {items others : List Value}
      (h : List.Forall₂ R items others) : Reordered R (.row finish items) (.row finish others)
  | members (empty before after : String) {keys middle others : List Value}
      (h : List.Forall₂ R keys middle) (hperm : middle.Perm others) :
      Reordered R (.row (setText empty before after) keys)
        (.row (setText empty before after) others)
  | pairs {entries others : List (Value × Value)}
      (h : List.Forall₂ (fun entry other => R entry.1 other.1 ∧ R entry.2 other.2) entries others) :
      Reordered R (.pairs entries) (.pairs others)
  | record (name : String) {fields others : List (String × Value)}
      (h : List.Forall₂ (fun field other => field.1 = other.1 ∧ R field.2 other.2) fields others) :
      Reordered R (.record name fields) (.record name others)

theorem Reordered.of_eq {R : Value → Value → Prop} {text other : Except Fault String}
    (h : text = other) : Reordered R (.plain text) (.plain other) :=
  h ▸ .plain text

variable {empty before after : String}

theorem sort_texts_ordered (texts : List String) :
    (sortTexts texts).Pairwise fun a b => a ≤ b := by
  have hsorted : (sortTexts texts).Pairwise fun a b => decide (a ≤ b) = true := by
    refine List.pairwise_mergeSort (fun a b c hab hbc => ?_) (fun a b => ?_) texts
    · exact decide_eq_true (String.le_trans (of_decide_eq_true hab) (of_decide_eq_true hbc))
    · rw [← Bool.decide_or]
      exact decide_eq_true (String.le_total a b)
  exact hsorted.imp of_decide_eq_true

theorem sort_texts_perm {texts others : List String} (h : texts.Perm others) :
    sortTexts texts = sortTexts others := by
  have hsorted : (sortTexts texts).Perm (sortTexts others) :=
    calc
      (sortTexts texts).Perm texts := List.mergeSort_perm texts _
      texts.Perm others := h
      others.Perm (sortTexts others) := (List.mergeSort_perm others _).symm
  exact hsorted.eq_of_pairwise (fun a b _ _ => String.le_antisymm)
    (sort_texts_ordered texts) (sort_texts_ordered others)

/-- The text of a set has its members in the order of their texts, wherever they come from. -/
theorem set_text_perm {texts others : List String} (h : texts.Perm others) :
    setText empty before after texts = setText empty before after others := by
  unfold setText
  rw [sort_texts_perm h, h.isEmpty_eq]

theorem render_perm {shown : Value → Except Fault String} {keys others : List Value}
    (h : keys.Perm others) {text : String}
    (hrun : render shown (.row (setText empty before after) keys) = .ok text) :
    render shown (.row (setText empty before after) others) = .ok text := by
  obtain ⟨texts, htexts, hfinish⟩ := bind_eq_ok hrun
  obtain ⟨middle, hothers, hperm⟩ := List.perm_comp_forall₂ h.symm (mapM_ok_iff.mp htexts)
  have hmiddle : others.mapM shown = .ok middle := mapM_ok_iff.mpr hothers
  rw [← hfinish, ← set_text_perm hperm]
  exact congrArg (· >>= _) hmiddle

/-- If related parts are shown alike, layouts that are the same but for such parts and the order of
sets are rendered alike. -/
theorem Reordered.render {R : Value → Value → Prop} {shown other : Value → Except Fault String}
    (hR : ∀ x y, R x y → SameResult (shown x) (other y)) {layout layout' : Layout}
    (h : layout.Reordered R layout') : SameResult (layout.render shown) (layout'.render other) := by
  cases h with
  | plain text => exact .refl text
  | row finish h => exact (SameResult.mapM (h.imp hR)).bind fun _ => .refl _
  | members empty before after h hperm =>
      -- The members are replaced one by one first, and then put into another order.
      refine .trans ((SameResult.mapM (h.imp hR)).bind fun _ => .refl _) fun text => ?_
      exact ⟨render_perm hperm, render_perm hperm.symm⟩
  | pairs h =>
      refine (SameResult.mapM (h.imp fun entry other hentry => ?_)).bind fun _ => .refl _
      exact (hR _ _ hentry.1).bind fun _ => (hR _ _ hentry.2).bind fun _ => .refl _
  | record name h =>
      refine (SameResult.mapM (h.imp fun field other hfield => ?_)).bind fun _ => .refl _
      unfold fieldText
      rw [hfield.1]
      exact (hR _ _ hfield.2).bind fun _ => .refl _

end Layout

/-! ## Values and heaps -/

/-- The values are the same but for the order of the members of frozen sets, at any depth. -/
inductive Value.Reordered : Value → Value → Prop where
  | refl (value : Value) : Reordered value value
  | tuple (mark : Nat) {items others : List Value} (h : List.Forall₂ Reordered items others) :
      Reordered (.tuple mark items) (.tuple mark others)
  | frozenset (mark : Nat) {keys middle others : List Value}
      (h : List.Forall₂ Reordered keys middle) (hperm : middle.Perm others) :
      Reordered (.frozenset mark keys) (.frozenset mark others)
  | builtinMethod (mark : Nat) (method : String) {object other : Value}
      (h : Reordered object other) :
      Reordered (.builtinMethod mark object method) (.builtinMethod mark other method)

theorem Value.all_reordered_refl (values : List Value) :
    List.Forall₂ Value.Reordered values values :=
  List.forall₂_same.mpr fun value _ => .refl value

namespace Heap

/-- The heaps are the same, as far as texts show them, but for the order of the members of sets and
frozen sets. -/
structure Reordered (heap other : Heap) : Prop where
  list (id : ListId) : List.Forall₂ Value.Reordered (heap.list id).toList (other.list id).toList
  dict (id : DictId) :
    List.Forall₂ (fun entry other => entry.1.Reordered other.1 ∧ entry.2.Reordered other.2)
      (heap.dict id).entries (other.dict id).entries
  set (id : SetId) :
    ∃ middle, List.Forall₂ Value.Reordered (heap.set id) middle ∧ middle.Perm (other.set id)
  bytearray (id : ByteArrayId) : heap.bytearray id = other.bytearray id
  function (id : FunctionId) : heap.function id = other.function id
  className (id : InstanceId) : (heap.classOf id).name = (other.classOf id).name
  classKind (id : InstanceId) : (heap.classOf id).kind = (other.classOf id).kind
  definition (id : ClassId) : (heap.classDef id).name = (other.classDef id).name ∧
    (heap.classDef id).kind = (other.classDef id).kind
  fields (id : InstanceId) :
    List.Forall₂ (fun field other => field.1 = other.1 ∧ field.2.Reordered other.2)
      (heap.instanceOf id).fields.entries (other.instanceOf id).fields.entries
  error (id : ErrorId) : heap.error id = other.error id

variable {heap other : Heap} {a b : Value}

theorem type_name_reordered (hheap : heap.Reordered other) (h : a.Reordered b) :
    heap.typeName a = other.typeName b := by
  cases h with
  | refl =>
      cases a with
      | object id => exact hheap.className id
      | error id => exact congrArg (·.kind.name) (hheap.error id)
      | _ => rfl
  | _ => rfl

/-- A value is laid out the same in both heaps, but for the order of sets. -/
theorem layout_reordered_refl (hheap : heap.Reordered other) (value : Value) :
    (heap.layout value).Reordered Value.Reordered (other.layout value) := by
  cases value with
  | list id => exact .row _ (hheap.list id)
  | tuple mark items => exact .row _ (Value.all_reordered_refl items)
  | dict id => exact .pairs (hheap.dict id)
  | frozenset mark keys => exact .members _ _ _ (Value.all_reordered_refl keys) (.refl keys)
  | set id =>
      obtain ⟨middle, hmiddle, hperm⟩ := hheap.set id
      exact .members _ _ _ hmiddle hperm
  | object id =>
      rw [layout_object, layout_object, ← hheap.className id, ← hheap.classKind id]
      split
      · exact .record _ (hheap.fields id)
      · exact .plain _
  | bytearray id =>
      refine .of_eq ?_
      unfold displayWithin
      dsimp only
      rw [hheap.bytearray id]
  | classObject id =>
      refine .of_eq ?_
      obtain ⟨hname, hkind⟩ := hheap.definition id
      unfold displayWithin
      dsimp only
      rw [hname, hkind]
  | function id =>
      refine .of_eq ?_
      unfold displayWithin
      dsimp only
      rw [hheap.function id]
  | boundMethod mark receiver function =>
      refine .of_eq ?_
      unfold displayWithin
      dsimp only
      rw [hheap.className receiver, hheap.function function]
  | builtinMethod mark object method =>
      refine .of_eq ?_
      unfold displayWithin
      dsimp only
      rw [type_name_reordered hheap (.refl object)]
  | error id =>
      refine .of_eq ?_
      unfold displayWithin
      dsimp only
      rw [hheap.error id]
  | _ => exact .plain _

/-- Values that are the same but for the order of sets are laid out the same but for that. -/
theorem layout_reordered (hheap : heap.Reordered other) (h : a.Reordered b) :
    (heap.layout a).Reordered Value.Reordered (other.layout b) := by
  cases h with
  | refl => exact layout_reordered_refl hheap a
  | tuple mark h => exact .row _ h
  | frozenset mark h hperm => exact .members _ _ _ h hperm
  | builtinMethod mark method h =>
      refine .of_eq ?_
      unfold displayWithin
      dsimp only
      rw [type_name_reordered hheap h]

/-- A set is shown the same whatever the order of its members and of those of the frozen sets in
it, and so is every value that holds such sets at any depth. Where there is no text, there is none
either way. -/
theorem display_ignores_set_order (hheap : heap.Reordered other) (h : a.Reordered b)
    (limit : Nat) : SameResult (heap.displayWithin limit a) (other.displayWithin limit b) := by
  induction limit generalizing a b with
  | zero => exact .refl _
  | succ limit ih =>
      rw [display_within_succ, display_within_succ]
      exact (layout_reordered hheap h).render fun x y hxy => ih hxy

/-- A list with a set in it, of which two members have the same text and one is a frozen set, in
two orders. -/
theorem display_ignores_set_order_mixed :
    let heap : Heap :=
      { Heap.empty 1000 with
        lists := ⟨#[#[.set 0]]⟩
        sets := ⟨#[[.bool true, .frozenset 1 [.null, .str "a"], .str "true"]]⟩ }
    let other : Heap :=
      { heap with sets := ⟨#[[.str "true", .frozenset 1 [.str "a", .null], .bool true]]⟩ }
    heap.Reordered other ∧ ∃ text, heap.display (.list 0) = .ok text ∧
      other.display (.list 0) = .ok text := by
  intro heap other
  have hfrozen : Value.Reordered (.frozenset 1 [.null, .str "a"])
      (.frozenset 1 [.str "a", .null]) :=
    .frozenset 1 (Value.all_reordered_refl _) (.swap _ _ _)
  have hset (id : SetId) :
      ∃ middle, List.Forall₂ Value.Reordered (heap.set id) middle ∧ middle.Perm (other.set id) := by
    cases id with
    | zero =>
        exact ⟨_, .cons (.refl _) (.cons hfrozen (.cons (.refl _) .nil)),
          (List.reverse_perm _).symm⟩
    | succ id => exact ⟨[], .nil, .nil⟩
  have hheap : heap.Reordered other :=
    { list := fun id => Value.all_reordered_refl _
      dict := fun id => List.forall₂_same.mpr fun entry _ => ⟨.refl _, .refl _⟩
      set := hset
      bytearray := fun id => rfl
      function := fun id => rfl
      className := fun id => rfl
      classKind := fun id => rfl
      definition := fun id => ⟨rfl, rfl⟩
      fields := fun id => List.forall₂_same.mpr fun field _ => ⟨rfl, .refl _⟩
      error := fun id => rfl }
  obtain ⟨text, hshown⟩ : ∃ text, heap.displayWithin 8 (.list 0) = .ok text := ⟨_, rfl⟩
  have htext : heap.display (.list 0) = .ok text := display_of_within hshown (by decide)
  exact ⟨hheap, text, htext,
    (display_ignores_set_order hheap (.refl _) heap.nestingLimit text).mp htext⟩

end Heap

end Script
