import Script.Interpreter
import Script.Proofs.Eval.Course

/-!
# What a name means when it is called

A name is looked up in the bindings of the scope before the table of functions, but a call of a
name looks into the table of functions first. `World.callee?` is what a call finds. The two ways
to look agree unless a binding hides a function of the same name: `calls_what_it_names_iff`.
-/

namespace Script

namespace World

/-- What a call finds under a name: a function comes before all else that the name may mean. -/
def callee? (world : World) (scope : Scope) (name : String) : Option Value :=
  ((world.functions.get? name).map .function).or (world.lookup? scope name)

variable {world : World} {scope : Scope} {name : String}

/-- A name in the table of functions is called as that function. -/
theorem callee_of_function {id : FunctionId} (h : world.functions.get? name = some id) :
    world.callee? scope name = some (.function id) := by
  simp only [callee?, h, Option.map_some, Option.some_or]

/-- Any other name is called as what it means. -/
theorem callee_of_no_function (h : world.functions.get? name = none) :
    world.callee? scope name = world.lookup? scope name := by
  simp only [callee?, h, Option.map_none, Option.none_or]

/-- A binding is what a name means. -/
theorem lookup_of_binding {value : Value} (h : scope.get? name = some value) :
    world.lookup? scope name = some value := by
  simp only [lookup?, h, Option.some_or]

/-- Without a binding, a function of that name is what it means. -/
theorem lookup_of_function {id : FunctionId} (hscope : scope.get? name = none)
    (h : world.functions.get? name = some id) :
    world.lookup? scope name = some (.function id) := by
  simp only [lookup?, hscope, h, Option.map_some, Option.none_or, Option.some_or]

/-- A call finds what a name means unless a binding hides a function that is something else. -/
theorem callee_eq_lookup_iff :
    world.callee? scope name = world.lookup? scope name ↔
      ∀ id value, world.functions.get? name = some id → scope.get? name = some value →
        value = .function id := by
  constructor
  · intro heq id value hfunction hbound
    rw [callee_of_function hfunction, lookup_of_binding hbound, Option.some.injEq] at heq
    exact heq.symm
  · intro h
    cases hfunction : world.functions.get? name with
    | none => exact callee_of_no_function hfunction
    | some id =>
        rw [callee_of_function hfunction]
        cases hbound : scope.get? name with
        | none => exact (lookup_of_function hbound hfunction).symm
        | some value => rw [lookup_of_binding hbound, h id value hfunction hbound]

end World

namespace Eval

/-- Evaluates the arguments of a call and calls what was found, or fails if nothing was. -/
def invoke (ev : Evaluator) (name : String) (found : Option Value) (items : List Expr) :
    Eval Value := do
  match found with
  | some target =>
    let arguments ← values ev items
    callValue ev target arguments
  | none => raise .nameError s!"name '{name}' is not defined"

variable (fuel : Nat) (state : EvalState) (name : String)

/-- Evaluating a name gives what it means, or fails. -/
theorem evaluate_name :
    evaluate (fuel + 1) (.name name) state =
      match state.world.lookup? state.scope name with
      | some value => (.ok value, state)
      | none => raise .nameError s!"name '{name}' is not defined" state := by
  show lookup name state = _
  unfold lookup
  rw [run_bind]
  show (match state.world.lookup? state.scope name with | some value => _ | none => _ :
    Eval Value) state = _
  cases state.world.lookup? state.scope name <;> rfl

/-- Evaluating a name gives a value exactly if that is what the name means. -/
theorem evaluate_name_eq_ok_iff (value : Value) :
    evaluate (fuel + 1) (.name name) state = (.ok value, state) ↔
      state.world.lookup? state.scope name = some value := by
  rw [evaluate_name]
  cases state.world.lookup? state.scope name with
  | none =>
      constructor
      · intro h
        cases h
      · intro h
        cases h
  | some found =>
      constructor
      · intro h
        cases h
        rfl
      · intro h
        cases h
        rfl

/-- Calling a name invokes what a call finds under it. -/
theorem evaluate_call_name (items : List Expr) :
    evaluate (fuel + 2) (.call (.name name) items) state =
      invoke (evaluate (fuel + 1)) name (state.world.callee? state.scope name) items state := by
  show call (evaluate (fuel + 1)) (.name name) items state = _
  rw [call_name_run]
  cases hfunction : state.world.functions.get? name with
  | some id =>
      -- The scope is not even looked at.
      rw [World.callee_of_function hfunction]
      rfl
  | none =>
      rw [World.callee_of_no_function hfunction]
      dsimp only
      rw [run_bind, evaluate_name]
      cases state.world.lookup? state.scope name <;> rfl

/-- A call of a name invokes what evaluating the name gives, unless the name is bound to something
and is also the name of a function that is something else: then the function is called. -/
theorem calls_what_it_names_iff :
    (∀ items,
      evaluate (fuel + 2) (.call (.name name) items) state =
        invoke (evaluate (fuel + 1)) name (state.world.callee? state.scope name) items state) ∧
    (∀ value,
      evaluate (fuel + 1) (.name name) state = (.ok value, state) ↔
        state.world.lookup? state.scope name = some value) ∧
    (state.world.callee? state.scope name = state.world.lookup? state.scope name ↔
      ∀ id value, state.world.functions.get? name = some id →
        state.scope.get? name = some value → value = .function id) :=
  ⟨evaluate_call_name fuel state name, evaluate_name_eq_ok_iff fuel state name,
    World.callee_eq_lookup_iff⟩

/-- The state after two functions have been defined, and the name of the first has been bound to
the second. -/
def hiddenFunction : EvalState :=
  (body (evaluate 5)
    [.defineFunction "f" [] [.int 1], .defineFunction "g" [] [.int 2], .letBind "f" (.name "g")]
    ⟨.empty, .initial 1000 (Console.ofInput "")⟩).2

/-- There the name means the second function, which would give 2, but a call gives the 1 of the
first. -/
theorem hidden_function_called :
    evaluate 5 (.name "f") hiddenFunction = (.ok (.function 1), hiddenFunction) ∧
      (callValue (evaluate 5) (.function 1) [] hiddenFunction).1 = .ok (.int 2) ∧
      (evaluate 5 (.call (.name "f") []) hiddenFunction).1 = .ok (.int 1) :=
  ⟨rfl, rfl, rfl⟩

end Eval

end Script
