import Script.Proofs.Eval.FrozenNames

/-!
# Constants

A name that is bound for good keeps its value: every way to bind a name asks first whether the name
is constant, and calls and comprehensions bind names in copies of the scope, which are dropped when
they end. Besides, a name is constant only where it is bound. `constants_never_change` says both,
the first of every evaluation and the second of every state that occurs.
-/

namespace Script

namespace Scope

/-- Every constant of the first scope is a constant of the second, with the same value. -/
def KeepsConstants (scope after : Scope) : Prop :=
  ∀ name, scope.isConstant name = true →
    after.isConstant name = true ∧ after.get? name = scope.get? name

/-- Every constant is bound. -/
def BindsConstants (scope : Scope) : Prop :=
  ∀ name, scope.isConstant name = true → ∃ value, scope.get? name = some value

/-- After a name has been bound for good, it is constant besides those that were. -/
theorem isConstant_bindConstant_iff (scope : Scope) (name other : String) (value : Value) :
    (scope.bindConstant name value).isConstant other = true ↔
      other = name ∨ scope.isConstant other = true := by
  unfold bindConstant
  by_cases h : scope.isConstant name = true
  · rw [if_pos h]
    constructor
    · exact .inr
    · rintro (rfl | hother)
      · exact h
      · exact hother
  · rw [if_neg h]
    simp only [isConstant, List.contains_eq_mem, List.mem_append, List.mem_singleton,
      decide_eq_true_eq]
    exact or_comm

/-- A parameter is not constant, and all other names are what they were. -/
theorem isConstant_bindParameter_iff (scope : Scope) (name other : String) (value : Value) :
    (scope.bindParameter name value).isConstant other = true ↔
      other ≠ name ∧ scope.isConstant other = true := by
  simp [isConstant, bindParameter, and_comm]

/-- Looking up a name after one has been bound for good. -/
theorem get?_bindConstant (scope : Scope) (name other : String) (value : Value) :
    (scope.bindConstant name value).get? other =
      if other = name then some value else scope.get? other :=
  Table.get?_insert scope.bindings name other value

/-- Looking up a name after a parameter has been bound. -/
theorem get?_bindParameter (scope : Scope) (name other : String) (value : Value) :
    (scope.bindParameter name value).get? other =
      if other = name then some value else scope.get? other :=
  Table.get?_insert scope.bindings name other value

namespace KeepsConstants

theorem refl (scope : Scope) : scope.KeepsConstants scope :=
  fun _ hname => ⟨hname, rfl⟩

theorem trans {first second third : Scope} (h : first.KeepsConstants second)
    (hnext : second.KeepsConstants third) : first.KeepsConstants third := by
  intro name hname
  obtain ⟨hsecond, hvalue⟩ := h name hname
  obtain ⟨hthird, hvalue'⟩ := hnext name hsecond
  exact ⟨hthird, hvalue'.trans hvalue⟩

variable {scope : Scope} {name : String}

/-- A constant has another name than one that is not constant. -/
theorem ne_of_constant {other : String} (h : scope.isConstant name = false)
    (hother : scope.isConstant other = true) : other ≠ name := by
  rintro rfl
  rw [h] at hother
  cases hother

/-- Binding a name that is not constant. -/
theorem bind (h : scope.isConstant name = false) (value : Value) :
    scope.KeepsConstants (scope.bind name value) := by
  intro other hother
  rw [isConstant_bind, get?_bind, if_neg (ne_of_constant h hother)]
  exact ⟨hother, rfl⟩

/-- Binding a name for good that is not constant yet. -/
theorem bind_constant (h : scope.isConstant name = false) (value : Value) :
    scope.KeepsConstants (scope.bindConstant name value) := by
  intro other hother
  rw [isConstant_bindConstant_iff, get?_bindConstant, if_neg (ne_of_constant h hother)]
  exact ⟨.inr hother, rfl⟩

end KeepsConstants

namespace BindsConstants

variable {scope : Scope}

theorem empty : Scope.empty.BindsConstants :=
  fun _ hname => nomatch hname

/-- A name that is bound is not lost, whatever is bound besides. -/
theorem bind (h : scope.BindsConstants) (name : String) (value : Value) :
    (scope.bind name value).BindsConstants := by
  intro other hother
  rw [isConstant_bind] at hother
  rw [get?_bind]
  split
  · exact ⟨value, rfl⟩
  · exact h other hother

theorem bind_constant (h : scope.BindsConstants) (name : String) (value : Value) :
    (scope.bindConstant name value).BindsConstants := by
  intro other hother
  rw [isConstant_bindConstant_iff] at hother
  rw [get?_bindConstant]
  split
  · exact ⟨value, rfl⟩
  · rename_i hne
    exact h other (hother.resolve_left hne)

theorem bind_parameter (h : scope.BindsConstants) (name : String) (value : Value) :
    (scope.bindParameter name value).BindsConstants := by
  intro other hother
  obtain ⟨hne, hconstant⟩ := (isConstant_bindParameter_iff scope name other value).mp hother
  rw [get?_bindParameter, if_neg hne]
  exact h other hconstant

/-- The parameters of a call are bound one after the other. -/
theorem bind_parameters (h : scope.BindsConstants) (arguments : List (String × Value)) :
    (arguments.foldl (fun scope pair => scope.bindParameter pair.1 pair.2)
      scope).BindsConstants := by
  induction arguments generalizing scope with
  | nil => exact h
  | cons pair arguments ih => exact ih (h.bind_parameter pair.1 pair.2)

/-- The scope of a call. -/
theorem for_call (h : scope.BindsConstants) (receiver : Option Value)
    (arguments : List (String × Value)) :
    (scope.forCall receiver arguments).BindsConstants := by
  unfold forCall
  cases receiver with
  | none => exact h.bind_parameters arguments
  | some value => exact (h.bind "self" value).bind_parameters arguments

end BindsConstants

end Scope

namespace EvalState

variable {state after : EvalState}

/-- No way in which evaluation changes the state touches a constant. -/
theorem Becomes.keeps_constants (h : state.Becomes after) :
    state.scope.KeepsConstants after.scope := by
  induction h with
  | trans _ _ ih ih' => exact ih.trans ih'
  | bind state name value _ hconstant => exact .bind hconstant value
  | bindConstant state name value _ hconstant => exact .bind_constant hconstant value
  -- What the elements bind is dropped; what the source binds stays.
  | comprehension _ _ ih _ => exact ih
  | _ => exact .refl _

/-- Evaluation keeps constants bound. -/
theorem Becomes.binds_constants (h : state.Becomes after) (hstate : state.scope.BindsConstants) :
    after.scope.BindsConstants := by
  induction h with
  | trans _ _ ih ih' => exact ih' (ih hstate)
  | bind state name value => exact hstate.bind name value
  | bindConstant state name value => exact hstate.bind_constant name value
  | comprehension _ _ ih _ => exact ih hstate
  | _ => exact hstate

/-- That constants are bound is an invariant. -/
theorem binds_constants_invariant : Invariant fun state => state.scope.BindsConstants where
  fresh _ _ := .empty
  started h := h
  becomes hbecomes h := hbecomes.binds_constants h
  enters := by
    rintro state _ ⟨id, receiver, items, _, _⟩ h
    exact h.for_call _ _
  copies _ h := h

end EvalState

/-- Whatever the evaluation of an expression comes to, every constant of the scope is a constant
with the same value after it; and in every state that occurs, every constant is bound. -/
theorem constants_never_change :
    (∀ (fuel : Nat) (expr : Expr) (state : EvalState) (name : String),
      state.scope.isConstant name = true →
        (Eval.evaluate fuel expr state).2.scope.isConstant name = true ∧
        (Eval.evaluate fuel expr state).2.scope.get? name = state.scope.get? name) ∧
    ∀ state : EvalState, state.Occurs →
      ∀ name, state.scope.isConstant name = true → ∃ value, state.scope.get? name = some value := by
  constructor
  · intro fuel expr state name hname
    exact (Eval.evaluate_becomes fuel expr state).keeps_constants name hname
  · intro state hstate name hname
    exact EvalState.binds_constants_invariant.of_occurs hstate name hname

/-- A constant survives an assignment to it inside a loop whose error is caught, and its name as
the name of the caught error. -/
theorem constants_never_change_in_handler :
    let state := EvalState.afterStatements [.constBind "x" (.int 1)]
    let expr : Expr :=
      .tryCatch [.whileLoop (.bool true) [.assign "x" (.int 2)]] (some "x") [.null]
    state.scope.isConstant "x" = true ∧ state.Occurs ∧
      (Eval.evaluate 5 expr state).2.scope.isConstant "x" = true ∧
      (Eval.evaluate 5 expr state).2.scope.get? "x" = some (.int 1) ∧
      ∃ value, state.scope.get? "x" = some value := by
  intro state expr
  have hconstant : state.scope.isConstant "x" = true := rfl
  have hoccurs : state.Occurs := EvalState.occurs_after_statements rfl
  obtain ⟨hkept, hvalue⟩ := constants_never_change.1 5 expr state "x" hconstant
  exact ⟨hconstant, hoccurs, hkept, hvalue, constants_never_change.2 state hoccurs "x" hconstant⟩

end Script
