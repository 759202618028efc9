import Script.Proofs.Builtin.Evolves

/-!
# Applications of built-in operations

Most of what a program does makes objects or raises errors, and no more. An `Application` is one of
the operations that can do more, with the values it is applied to: change an object that exists,
link errors, or stop with a fault that the language has no error for. `Application.limits` says for
each what that is.
-/

namespace Script

/-- A built-in operation with the values that it is applied to, as far as the operation can do more
than make objects and raise errors. -/
inductive Application where
  | operator (operator : BinaryOperator) (left right : Value)
  | function (function : BuiltinFunction) (items : List Value)
  | method (receiver : Value) (name : String) (items : List Value)
  | getItem (collection index : Value)
  | setItem (collection index value : Value)
  /-- An error gets a cause. -/
  | cause (error : ErrorId) (cause : Option ErrorId)
  /-- An error that a handler throws is linked to the one that it was handling. -/
  | context (error caught : ErrorId)

/-- What an operation makes of the heap, its result left out. -/
def Action.effect {α : Type} (action : Action α) (heap : Heap) : Except Failure Heap :=
  (action heap).map (·.2)

namespace Action

variable {α : Type} {action : Action α} {heap after : Heap}

theorem exists_of_effect (h : action.effect heap = .ok after) :
    ∃ result, action heap = .ok (result, after) := by
  unfold effect at h
  rcases hrun : action heap with failure | ⟨result, middle⟩
  · rw [hrun] at h
    cases h
  · rw [hrun] at h
    cases h
    exact ⟨result, rfl⟩

theorem effect_of_ok {result : α} (h : action heap = .ok (result, after)) :
    action.effect heap = .ok after := by
  unfold effect
  rw [h]
  rfl

theorem effect_eq_error_iff {failure : Failure} :
    action.effect heap = .error failure ↔ action heap = .error failure := by
  unfold effect
  rcases action heap with failure' | ⟨result, middle⟩
  · simp [Except.map]
  · simp [Except.map]

end Action

namespace Application

/-- What an application makes of the heap. -/
def effect : Application → Heap → Except Failure Heap
  | .operator symbol left right => (symbol.apply left right).effect
  | .function .print items => (items.mapM Action.display).effect
  | .function .input (prompt :: _) => (Action.display prompt).effect
  | .function .input [] => .ok
  | .function callee items => (Builtin.compute callee items).effect
  | .method receiver name items => (Builtin.callMethod receiver name items).effect
  | .getItem collection index => (Builtin.getItem collection index).effect
  | .setItem collection index value => (Builtin.setItem collection index value).effect
  | .cause error linked =>
    (Action.setError error fun contents =>
      { contents with cause := linked, suppressContext := true }).effect
  | .context error caught =>
    (Action.setError error fun contents => { contents with context := some caught }).effect

/-- What an application may do, the link between two errors apart. -/
def limits : Application → Limits
  | .operator symbol _ _ =>
    { Limits.none with faults := fun fault => symbol = .power ∧ fault = .zeroPower }
  | .function _ _ | .getItem _ _ => { Limits.none with faults := fun fault => fault = .longInteger }
  | .method receiver name _ =>
    ⟨fun object => object = receiver, fun id => receiver = .error id,
      fun id => receiver = .error id ∧ name = "with_cause", fun fault => fault = .longInteger⟩
  | .setItem collection _ _ => { Limits.none with objects := fun object => object = collection }
  | .cause error _ => { Limits.none with linked := fun id => id = error }
  | .context _ _ => Limits.none

variable {application : Application} {heap after : Heap}

/-- An application links two errors, or it is an operation within its limits. -/
theorem cases_effect (application : Application) :
    (∃ error caught, application = .context error caught) ∨
      ∃ (α : Type) (action : Action α),
        application.effect = action.effect ∧ action.Within application.limits := by
  cases application with
  | operator symbol left right =>
      refine .inr ⟨_, _, rfl, BinaryOperator.within_apply ?_ left right⟩
      exact fun h => ⟨h, rfl⟩
  | function callee items =>
      have hcompute : (Builtin.compute callee items).Within (limits (.function callee items)) :=
        Builtin.within_compute rfl callee items
      have hdisplay (value : Value) :
          (Action.display value).Within (limits (.function callee items)) :=
        Action.within_display rfl value
      cases callee with
      | print => exact .inr ⟨_, _, rfl, Action.within_map_m hdisplay items⟩
      | input =>
          cases items with
          | nil => exact .inr ⟨_, pure (), rfl, Action.within_pure ()⟩
          | cons prompt items => exact .inr ⟨_, _, rfl, hdisplay prompt⟩
      | _ => exact .inr ⟨_, _, rfl, hcompute⟩
  | method receiver name items =>
      refine .inr ⟨_, _, rfl, Builtin.within_call_method ?_ items⟩
      exact ⟨rfl, id, fun h hname => ⟨h, hname⟩, fun _ _ => rfl, fun _ _ => rfl, fun _ _ => rfl⟩
  | getItem collection index => exact .inr ⟨_, _, rfl, Builtin.within_get_item rfl _ _⟩
  | setItem collection index value => exact .inr ⟨_, _, rfl, Builtin.within_set_item rfl _ _⟩
  | cause error linked => exact .inr ⟨_, _, rfl, Action.within_set_cause rfl linked⟩
  | context error caught => exact .inl ⟨error, caught, rfl⟩

/-- What an application makes of the heap, if it is no link between two errors. -/
theorem changes_of_effect (h : application.effect heap = .ok after)
    (hlink : ∀ error caught, application ≠ .context error caught) :
    heap.Changes application.limits after := by
  obtain ⟨error, caught, heq⟩ | ⟨_, action, heq, hwithin⟩ := cases_effect application
  · exact (hlink error caught heq).elim
  · rw [heq] at h
    obtain ⟨result, hrun⟩ := Action.exists_of_effect h
    exact hwithin.changes hrun

/-- The faults that an application stops with. -/
theorem allows_of_effect {fault : Fault} (h : application.effect heap = .error (.fault fault)) :
    application.limits.allows fault := by
  obtain ⟨error, caught, rfl⟩ | ⟨_, action, heq, hwithin⟩ := cases_effect application
  · cases h
  · rw [heq, Action.effect_eq_error_iff] at h
    exact hwithin.allows h

end Application

end Script
