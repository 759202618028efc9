import Script.Proofs.Heap.Nesting

/-!
# Room for nested values

How deeply values may be nested to be shown, compared or ordered follows from a limit. A higher
limit leaves all texts, answers and errors as they are, but for the fault that values are nested too
deeply: `Deepens` says so of two results, and it is shown for texts (`Heap.display_within_deepens`),
equality (`Heap.equal_within_deepens`) and order (`Heap.ordered_within_deepens`).
-/

namespace Script

/-- With more room a computation comes to the same, unless there was too little room before. -/
def Deepens {ε α : Type} (deep : ε) (result more : Except ε α) : Prop :=
  result = .error deep ∨ more = result

namespace Deepens

variable {ε α β : Type} {deep : ε}

theorem refl (result : Except ε α) : Deepens deep result result :=
  .inr rfl

theorem ok {result more : Except ε α} {value : α} (h : Deepens deep result more)
    (hresult : result = .ok value) : more = .ok value := by
  subst hresult
  exact h.resolve_left nofun

theorem bind {first first' : Except ε α} {next next' : α → Except ε β}
    (hfirst : Deepens deep first first')
    (hnext : ∀ result, Deepens deep (next result) (next' result)) :
    Deepens deep (first >>= next) (first' >>= next') := by
  obtain rfl | rfl := hfirst
  · exact .inl rfl
  · cases first' with
    | error fault => exact .refl _
    | ok result => exact hnext result

theorem map {first first' : Except ε α} (h : Deepens deep first first') (finish : α → β) :
    Deepens deep (do return finish (← first)) (do return finish (← first')) :=
  h.bind fun _ => .refl _

theorem mapM {f g : α → Except ε β} (h : ∀ item, Deepens deep (f item) (g item))
    (items : List α) : Deepens deep (items.mapM f) (items.mapM g) := by
  induction items with
  | nil => exact .refl _
  | cons item items ih =>
      rw [List.mapM_cons, List.mapM_cons]
      exact (h item).bind fun _ => ih.bind fun _ => .refl _

end Deepens

variable {α : Type}

namespace Heap

open Layout

variable {heap : Heap} {depth more : Nat} {a b value : Value}

/-! ## Texts -/

theorem render_deepens {shown other : Value → Except Fault String}
    (h : ∀ part, Deepens .recursion (shown part) (other part)) (layout : Layout) :
    Deepens .recursion (layout.render shown) (layout.render other) := by
  cases layout with
  | plain text => exact .refl text
  | row finish items => exact (Deepens.mapM h items).map finish
  | pairs entries =>
      refine .map (.mapM (fun entry => ?_) entries) _
      exact (h entry.1).bind fun _ => (h entry.2).bind fun _ => .refl _
  | record name fields =>
      exact .map (.mapM (fun field => (h field.2).bind fun _ => .refl _) fields) _

/-- Values that may be nested more deeply are shown in the same way. -/
theorem display_within_deepens (hle : depth ≤ more) (value : Value) :
    Deepens .recursion (heap.displayWithin depth value) (heap.displayWithin more value) := by
  induction depth generalizing more value with
  | zero => exact .inl rfl
  | succ depth ih =>
      obtain ⟨more, rfl⟩ := Nat.exists_eq_add_one.mpr (Nat.zero_lt_of_lt hle)
      rw [display_within_succ, display_within_succ]
      exact render_deepens (fun part => ih (Nat.le_of_succ_le_succ hle) part) _

/-- A value keeps its text if it may be nested more deeply. -/
theorem display_within_mono {text : String} (h : heap.displayWithin depth value = .ok text)
    (hle : depth ≤ more) : heap.displayWithin more value = .ok text :=
  (display_within_deepens hle value).ok h

/-- A text that is found within a few levels is the text of the value. -/
theorem display_of_within {text : String} (h : heap.displayWithin depth value = .ok text)
    (hle : depth ≤ hostFrames / framesPerValue) : heap.display value = .ok text :=
  display_within_mono h (hle.trans heap.rest_le_nesting_limit)

/-! ## Comparisons -/

section Agree

variable {agree agree' : Value → Value → Except Fault Bool}
  (hagree : ∀ x y, Deepens .recursion (agree x y) (agree' x y))
include hagree

/-- A comparison of parts that goes on only if they agree. -/
theorem next_deepens (x y : Value) {next next' : Except Fault Bool}
    (hnext : Deepens .recursion next next') :
    Deepens .recursion (do if ← agree x y then next else return false)
      (do if ← agree' x y then next' else return false) := by
  refine (hagree x y).bind fun same => ?_
  cases same with
  | false => exact .refl _
  | true => exact hnext

theorem all_agree_deepens (xs ys : List Value) :
    Deepens .recursion (allAgree agree xs ys) (allAgree agree' xs ys) := by
  induction xs generalizing ys with
  | nil => exact .refl _
  | cons x xs ih =>
      cases ys with
      | nil => exact .refl _
      | cons y ys => exact next_deepens hagree x y (ih ys)

theorem entries_agree_deepens (other : Dict) (entries : List (Value × Value)) :
    Deepens .recursion (entriesAgree agree other entries) (entriesAgree agree' other entries) := by
  induction entries with
  | nil => exact .refl _
  | cons entry entries ih =>
      unfold entriesAgree
      split
      · exact .refl _
      · exact next_deepens hagree _ entry.2 ih

theorem compare_deepens (s t : Shape) :
    Deepens .recursion (s.compare agree t) (s.compare agree' t) := by
  unfold Shape.compare
  split
  · split
    · exact .refl _
    · exact all_agree_deepens hagree _ _
  · exact all_agree_deepens hagree _ _
  · split
    · exact .refl _
    · exact entries_agree_deepens hagree _ _
  all_goals exact .refl _

theorem first_difference_deepens (xs ys : List Value) :
    Deepens .recursion (firstDifference agree xs ys) (firstDifference agree' xs ys) := by
  induction xs generalizing ys with
  | nil => exact .refl _
  | cons x xs ih =>
      cases ys with
      | nil => exact .refl _
      | cons y ys =>
          refine (hagree x y).bind fun same => ?_
          cases same with
          | false => exact .refl _
          | true => exact ih ys

end Agree

theorem agree_deepens
    (h : ∀ x y, Deepens .recursion (heap.equalWithin depth x y) (heap.equalWithin more x y))
    (x y : Value) : Deepens .recursion (heap.agree depth x y) (heap.agree more x y) := by
  unfold agree
  split
  · exact .refl _
  · exact h x y

/-- Values that may be nested more deeply are compared in the same way. -/
theorem equal_within_deepens (hle : depth ≤ more) (a b : Value) :
    Deepens .recursion (heap.equalWithin depth a b) (heap.equalWithin more a b) := by
  induction depth generalizing more a b with
  | zero => exact .inl rfl
  | succ depth ih =>
      obtain ⟨more, rfl⟩ := Nat.exists_eq_add_one.mpr (Nat.zero_lt_of_lt hle)
      rw [equal_within_succ, equal_within_succ]
      exact compare_deepens (agree_deepens fun x y => ih (Nat.le_of_succ_le_succ hle) x y) _ _

/-- An answer that is found within some depth is found within any greater depth. -/
theorem equal_within_mono {result : Bool} (h : heap.equalWithin depth a b = .ok result)
    (hle : depth ≤ more) : heap.equalWithin more a b = .ok result :=
  (equal_within_deepens hle a b).ok h

/-- An answer that is found within a few levels is the answer. -/
theorem equal_of_within {result : Bool} (h : heap.equalWithin depth a b = .ok result)
    (hle : depth ≤ hostFrames / framesPerValue) : heap.equal a b = .ok result :=
  equal_within_mono h (hle.trans heap.rest_le_nesting_limit)

/-! ## Order -/

theorem lift_fault_deepens {result other : Except Fault α} (h : Deepens .recursion result other) :
    Deepens (.fault .recursion) (liftFault result) (liftFault other) := by
  obtain rfl | rfl := h
  · exact .inl rfl
  · exact .refl _

/-- Two rows are ordered by their first difference, or by where one of them ends. -/
theorem sequences_deepens {agree agree' : Value → Value → Except Fault Bool}
    {order order' : Value → Value → Except Failure Bool} (comparison : Comparison)
    (hagree : ∀ x y, Deepens .recursion (agree x y) (agree' x y))
    (horder : ∀ x y, Deepens (.fault .recursion) (order x y) (order' x y)) (xs ys : List Value) :
    Deepens (.fault .recursion)
      (do
        match ← liftFault (firstDifference agree xs ys) with
        | .inl (x, y) => order x y
        | .inr order => return comparison.holds order : Except Failure Bool)
      (do
        match ← liftFault (firstDifference agree' xs ys) with
        | .inl (x, y) => order' x y
        | .inr order => return comparison.holds order) := by
  refine (lift_fault_deepens (first_difference_deepens hagree xs ys)).bind fun difference => ?_
  cases difference with
  | inl parts => exact horder parts.1 parts.2
  | inr order => exact .refl _

/-- Values that may be nested more deeply are ordered in the same way. -/
theorem ordered_within_deepens (comparison : Comparison) (hle : depth ≤ more) (a b : Value) :
    Deepens (.fault .recursion) (heap.orderedWithin comparison depth a b)
      (heap.orderedWithin comparison more a b) := by
  induction depth generalizing more a b with
  | zero => exact .inl rfl
  | succ depth ih =>
      obtain ⟨more, rfl⟩ := Nat.exists_eq_add_one.mpr (Nat.zero_lt_of_lt hle)
      have hless := Nat.le_of_succ_le_succ hle
      have hagree : ∀ x y, Deepens .recursion (heap.agree depth x y) (heap.agree more x y) :=
        agree_deepens fun x y => equal_within_deepens hless x y
      have hsequences := sequences_deepens comparison hagree fun x y => ih hless x y
      unfold orderedWithin
      dsimp only
      split
      · exact .refl _
      · exact hsequences _ _
      · exact hsequences _ _
      · exact .refl _

end Heap

end Script
