import Script.Eval.Step
import Script.Proofs.Builtin.Evolves

/-!
# The course of an evaluation

`EvalState.Becomes` lists the ways in which evaluation changes the state, each with what is
checked before. `EvalState.Reaches` adds the states inside: the scope of a call that has begun,
and the copy of the scope that a comprehension works in. What is to hold in every state of every
run has only to be shown for each of these ways.

`Eval.Agree` is what each rule of the evaluator is shown to do: it changes the state in these ways
only, and it looks at the evaluation of the parts only in states that are reached.
-/

namespace Script

/-- The parameters that a call gives arguments for: a receiver takes the place of `self`. -/
def FunctionDef.openParameters (definition : FunctionDef) (receiver : Option InstanceId) :
    List String :=
  if receiver.isSome && definition.takesSelf then definition.parameters.tail
  else definition.parameters

/-- What has become of a console still fails when it would have failed. -/
structure Console.Remains (console after : Console) : Prop where
  reads : after.readsFail = console.readsFail
  writes : after.writesFail = console.writesFail

namespace Console.Remains

variable {console middle after : Console}

theorem refl (console : Console) : console.Remains console :=
  ⟨rfl, rfl⟩

theorem trans (h : console.Remains middle) (h' : middle.Remains after) : console.Remains after :=
  ⟨h'.reads.trans h.reads, h'.writes.trans h.writes⟩

/-- Writing a text leaves the console as it fails. -/
theorem write (console : Console) (text : String) : console.Remains (console.write text).2 := by
  unfold Console.write
  split <;> exact ⟨rfl, rfl⟩

/-- Reading a line leaves the console as it fails. -/
theorem read_line (console : Console) : console.Remains console.readLine.2 := by
  unfold Console.readLine
  split <;> exact ⟨rfl, rfl⟩

end Console.Remains

namespace EvalState

/-- The state with another heap. -/
def withHeap (state : EvalState) (heap : Heap) : EvalState :=
  { state with world := { state.world with heap := heap } }

/-- The state with another console. -/
def withConsole (state : EvalState) (console : Console) : EvalState :=
  { state with world := { state.world with console := console } }

/-- The scope in which a function is called with some arguments. -/
def frame (state : EvalState) (id : FunctionId) (receiver : Option InstanceId)
    (items : List Value) : Scope :=
  state.scope.forCall (receiver.map .object)
    (((state.world.heap.function id).openParameters receiver).zip items)

/-- The state when a call begins, one call deeper. -/
def entering (state : EvalState) (frame : Scope) : EvalState :=
  ⟨frame, { state.world with depth := state.world.depth + 1 }⟩

/-- The state of the caller after a call that left the state `left`. -/
def returning (state left : EvalState) : EvalState :=
  ⟨state.scope, { left.world with depth := left.world.depth - 1 }⟩

/-- A call begins: the depth is below its limit, and there is an argument for each parameter. -/
inductive Enters (state : EvalState) : EvalState → Prop where
  | call (id : FunctionId) (receiver : Option InstanceId) (items : List Value)
      (hcount :
        items.length = ((state.world.heap.function id).openParameters receiver).length)
      (hdepth : state.world.depth < state.world.maxDepth) :
      Enters state (state.entering (state.frame id receiver items))

/-- What a state can become while an expression is evaluated. -/
inductive Becomes : EvalState → EvalState → Prop where
  | refl (state : EvalState) : Becomes state state
  | trans {first second third : EvalState} :
      Becomes first second → Becomes second third → Becomes first third
  | operation (state : EvalState) {heap : Heap} (h : state.world.heap.Evolves heap) :
      Becomes state (state.withHeap heap)
  | newInstance (state : EvalState) (contents : Instance) :
      Becomes state (state.withHeap
        { state.world.heap with instances := state.world.heap.instances.push contents })
  | setField (state : EvalState) (id : InstanceId) (name : String) (value : Value) :
      Becomes state (state.withHeap
        { state.world.heap with
          instances := state.world.heap.instances.modify id fun contents =>
            { contents with fields := contents.fields.insert name value } })
  | setContext (state : EvalState) (id caught : ErrorId) :
      Becomes state (state.withHeap
        { state.world.heap with
          errors := state.world.heap.errors.modify id fun error =>
            { error with context := some caught } })
  | newFunction (state : EvalState) (definition : FunctionDef)
      (h : ∀ parameter ∈ definition.parameters, frozenValue? parameter = none) :
      Becomes state (state.withHeap
        { state.world.heap with functions := state.world.heap.functions.push definition })
  | nameFunction (state : EvalState) (name : String) (id : FunctionId) :
      Becomes state
        { state with
          world := { state.world with functions := state.world.functions.insert name id } }
  | newClass (state : EvalState) (definition : ClassDef) :
      Becomes state (state.withHeap
        { state.world.heap with classes := state.world.heap.classes.push definition })
  | nameClass (state : EvalState) (name : String) (id : ClassId) :
      Becomes state
        { state with
          world := { state.world with classes := state.world.classes.insert name id } }
  | log (state : EvalState) (event : LogEvent) :
      Becomes state
        { state with world := { state.world with log := event :: state.world.log } }
  | console (state : EvalState) {console : Console} (h : state.world.console.Remains console) :
      Becomes state (state.withConsole console)
  | bind (state : EvalState) (name : String) (value : Value)
      (hfrozen : frozenValue? name = none) (hconstant : state.scope.isConstant name = false) :
      Becomes state { state with scope := state.scope.bind name value }
  | bindConstant (state : EvalState) (name : String) (value : Value)
      (hfrozen : frozenValue? name = none) (hconstant : state.scope.isConstant name = false) :
      Becomes state { state with scope := state.scope.bindConstant name value }
  | call {state entered left : EvalState} :
      state.Enters entered → Becomes entered left → Becomes state (state.returning left)
  | comprehension {state middle left : EvalState} :
      Becomes state middle → Becomes { middle with scope := state.scope } left →
        Becomes state { left with scope := middle.scope }

/-- The states that an evaluation passes through, those of calls and comprehensions that have
begun included. -/
inductive Reaches (start : EvalState) : EvalState → Prop where
  | here : Reaches start start
  | later {state after : EvalState} :
      Reaches start state → state.Becomes after → Reaches start after
  | call {state entered : EvalState} :
      Reaches start state → state.Enters entered → Reaches start entered
  | comprehension {state middle : EvalState} :
      Reaches start state → state.Becomes middle →
        Reaches start { middle with scope := state.scope }

/-- Evaluation comes back to the depth of calls at which it began, and keeps the limit on it. -/
theorem Becomes.same_depth {first second : EvalState} (h : first.Becomes second) :
    second.world.depth = first.world.depth ∧ second.world.maxDepth = first.world.maxDepth := by
  induction h with
  | trans _ _ ih ih₂ => exact ⟨ih₂.1.trans ih.1, ih₂.2.trans ih.2⟩
  | call henters _ ih =>
      obtain ⟨id, receiver, items, -, -⟩ := henters
      refine ⟨?_, ih.2⟩
      show _ - 1 = _
      rw [ih.1]
      rfl
  | comprehension _ _ ih ih₂ => exact ⟨ih₂.1.trans ih.1, ih₂.2.trans ih.2⟩
  | operation state h => exact ⟨rfl, h.max_depth_eq⟩
  | _ => exact ⟨rfl, rfl⟩

/-- Evaluation does not change when reading and writing fail. -/
theorem Becomes.remains {first second : EvalState} (h : first.Becomes second) :
    first.world.console.Remains second.world.console := by
  induction h with
  | trans _ _ ih ih₂ => exact ih.trans ih₂
  | console state h => exact h
  | call henters _ ih =>
      obtain ⟨id, receiver, items, -, -⟩ := henters
      exact ih
  | comprehension _ _ ih ih₂ => exact ih.trans ih₂
  | _ => exact .refl _

end EvalState

namespace Eval

open EvalState

variable {α β : Type} {start : EvalState}

/-- Running one part of an evaluation after the other. -/
theorem run_bind (part : Eval α) (next : α → Eval β) (state : EvalState) :
    (part >>= next) state =
      match part state with
      | (.ok result, after) => next result after
      | (.error exit, after) => (.error exit, after) := by
  show (ExceptT.bindCont next (part state).1) (part state).2 = _
  rcases part state with ⟨_ | _, after⟩ <;> rfl

/-- What using the console comes to. -/
theorem on_console_run (use : Console → Except StreamFault α × Console) (state : EvalState) :
    onConsole use state =
      match use state.world.console with
      | (.ok result, console) => (.ok result, state.withConsole console)
      | (.error (.system reason), console) =>
        raise .osError reason (state.withConsole console)
      | (.error fault, console) =>
        (.error (.fault (.stream fault)), state.withConsole console) := by
  have hget : (get : Eval EvalState) state = (.ok state, state) := rfl
  unfold onConsole
  rw [run_bind, hget]
  dsimp only
  rw [run_bind]
  rcases use state.world.console with ⟨fault | result, console⟩
  · cases fault <;> rfl
  · rfl

/-- A call of a name looks into the table of functions first. -/
theorem call_name_run (ev : Evaluator) (name : String) (items : List Expr) (state : EvalState) :
    call ev (.name name) items state =
      match state.world.functions.get? name with
      | some id => (values ev items >>= fun arguments => callFunction ev id arguments none) state
      | none =>
        (ev (.name name) >>= fun target => values ev items >>= callValue ev target) state := by
  have hget : (get : Eval EvalState) state = (.ok state, state) := rfl
  unfold call
  rw [run_bind, hget]
  dsimp only
  cases state.world.functions.get? name <;> rfl

/-- From every state that is reached, both evaluations do the same, and change the state only as
evaluation may. -/
def Agree (start : EvalState) (part other : Eval α) : Prop :=
  ∀ state, start.Reaches state → part state = other state ∧ state.Becomes (part state).2

/-- What an evaluation makes of the state it is run in. -/
theorem Agree.becomes {part other : Eval α} {state : EvalState} (h : Agree state part other) :
    state.Becomes (part state).2 :=
  (h state .here).2

/-! ## The parts of a rule -/

theorem agree_pure (result : α) : Agree start (pure result) (pure result) :=
  fun state _ => ⟨rfl, .refl state⟩

theorem agree_throw (exit : Exit) : Agree start (throw exit : Eval α) (throw exit) :=
  fun state _ => ⟨rfl, .refl state⟩

theorem agree_get : Agree start (get : Eval EvalState) get :=
  fun state _ => ⟨rfl, .refl state⟩

theorem agree_bind {part part' : Eval α} {next next' : α → Eval β} (hpart : Agree start part part')
    (hnext : ∀ result, Agree start (next result) (next' result)) :
    Agree start (part >>= next) (part' >>= next') := by
  intro state hreached
  obtain ⟨heq, hbecomes⟩ := hpart state hreached
  rw [run_bind, run_bind, ← heq]
  rcases hrun : part state with ⟨exit | result, after⟩
  · rw [hrun] at hbecomes
    exact ⟨rfl, hbecomes⟩
  · -- The rest runs in a state that is reached, so the two evaluations agree there too.
    rw [hrun] at hbecomes
    obtain ⟨heq', hbecomes'⟩ := hnext result after (hreached.later hbecomes)
    exact ⟨heq', hbecomes.trans hbecomes'⟩

/-- An operation that changes the heap only as built-in operations do. -/
theorem agree_perform {limits : Limits} {action : Action α} (h : action.Within limits) :
    Agree start (perform action) (perform action) := by
  intro state _
  refine ⟨rfl, ?_⟩
  unfold perform
  split
  · rename_i result heap hrun
    exact .operation state (h.changes hrun).evolves
  · exact .refl state
  · exact .operation state (.newError _ _ _)

theorem agree_raise (kind : ErrorKind) (message : String) :
    Agree start (raise kind message : Eval α) (raise kind message) :=
  have hwithin : (Action.raise kind message : Action α).Within .none :=
    Action.within_raise kind message
  agree_perform hwithin

theorem agree_heap : Agree start heap heap :=
  fun state _ => ⟨rfl, .refl state⟩

theorem agree_record (event : LogEvent) : Agree start (record event) (record event) :=
  fun state _ => ⟨rfl, .log state event⟩

end Eval

end Script
