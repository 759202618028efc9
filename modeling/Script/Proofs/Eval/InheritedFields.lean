import Script.Proofs.Eval.ClassInvariant

/-!
# Inherited fields

What a class has in a field can be found in two ways: by searching the classes that it inherits
from, derived first, and by putting their fields together, base first, so that later ones overwrite
earlier ones. The first is how fields are read and the second is how instances get theirs. Since no
class declares a field twice, both come to the same for any chain of classes and any redefinition of
names, and a new instance reads like its class (`inherited_fields_agree`).
-/

namespace Script

namespace Eval

variable {state : EvalState} {id : ClassId} {object : InstanceId} {name : String} {value : Value}

theorem heap_bind_run {α : Type} (next : Heap → Eval α) (state : EvalState) :
    (heap >>= next) state = next state.world.heap state :=
  rfl

/-- A field that an instance has of its own is read from there. -/
theorem object_field_run
    (h : (state.world.heap.instanceOf object).fields.get? name = some value) :
    getAttribute (.object object) name state = (.ok value, state) := by
  show instanceAttribute object name state = _
  unfold instanceAttribute
  rw [heap_bind_run, h]
  rfl

/-- A field that a class has, of its own or inherited, is read from there. -/
theorem class_field_run (hkind : (state.world.heap.classDef id).kind ≠ .enum)
    (h : state.world.heap.findField? id name = some value) :
    getAttribute (.classObject id) name state = (.ok value, state) := by
  show classAttribute id name state = _
  unfold classAttribute
  rw [heap_bind_run, if_neg hkind, h]
  rfl

end Eval

namespace EvalState

/-- An instance has the fields of a class with their defaults, and reading any of them through the
instance and through the class gives the same value and changes nothing. -/
structure ReadsAlike (state : EvalState) (object : InstanceId) (id : ClassId) : Prop where
  owner : (state.world.heap.instanceOf object).classId = id
  fields : (state.world.heap.instanceOf object).fields = state.world.heap.fieldDefaults id
  read {name : String} (h : name ∈ (state.world.heap.fieldDefaults id).names) : ∃ value,
    Eval.getAttribute (.object object) name state = (.ok value, state) ∧
    Eval.getAttribute (.classObject id) name state = (.ok value, state)

/-- The state with a new instance of a class, which has the defaults of the class in its fields. -/
def withNew (state : EvalState) (id : ClassId) : EvalState :=
  state.withHeap { state.world.heap with
    instances := state.world.heap.instances.push ⟨id, state.world.heap.fieldDefaults id⟩ }

variable {state : EvalState} {id : ClassId}

theorem reads_alike_new (h : state.world.heap.Shaped)
    (hkind : (state.world.heap.classDef id).kind ≠ .enum) :
    (state.withNew id).ReadsAlike state.world.heap.instances.next id := by
  let heap := state.world.heap
  let after := (state.withNew id).world.heap
  have hclasses : after.classes = heap.classes := rfl
  have hnew : after.instanceOf heap.instances.next = ⟨id, heap.fieldDefaults id⟩ :=
    Store.get_push_next _ _
  have hdefaults : after.fieldDefaults id = heap.fieldDefaults id :=
    Heap.field_defaults_congr hclasses id
  refine ⟨congrArg Instance.classId hnew, (congrArg Instance.fields hnew).trans hdefaults.symm,
    fun {name} hname => ?_⟩
  rw [hdefaults, ← Table.contains_iff] at hname
  obtain ⟨value, hvalue⟩ := Option.isSome_iff_exists.mp hname
  have hown : (after.instanceOf heap.instances.next).fields.get? name = some value := by
    rw [hnew]
    exact hvalue
  have hfound : after.findField? id name = some value := by
    rw [Heap.find_field_congr hclasses, ← h.get_field_defaults]
    exact hvalue
  exact ⟨value, Eval.object_field_run hown, Eval.class_field_run hkind hfound⟩

end EvalState

namespace Eval

/-- The evaluation has an instance of a class as its result, which reads like the class. -/
def MakesAlike (state : EvalState) (id : ClassId) (part : Eval Value) : Prop :=
  ∃ object after, part state = (.ok (.object object), after) ∧ after.ReadsAlike object id

variable {state : EvalState} {id : ClassId} {className : String}

theorem makes_alike_of_run {part : Eval Value} (h : state.world.heap.Shaped)
    (hkind : (state.world.heap.classDef id).kind ≠ .enum)
    (hrun : part state = (.ok (.object state.world.heap.instances.next), state.withNew id)) :
    MakesAlike state id part :=
  ⟨_, _, hrun, EvalState.reads_alike_new h hkind⟩

/-- A class without `__init__` that is called makes an instance and does nothing else. -/
theorem instantiate_run (ev : Evaluator)
    (hkind : (state.world.heap.classDef id).kind = .regular)
    (hinit : state.world.heap.findMethod? id "__init__" = none) :
    instantiate ev id [] state =
      (.ok (.object state.world.heap.instances.next), state.withNew id) := by
  have hnew : perform (Action.newInstance ⟨id, state.world.heap.fieldDefaults id⟩) state =
      (.ok state.world.heap.instances.next, state.withNew id) := rfl
  unfold instantiate
  rw [heap_bind_run]
  dsimp only
  rw [hkind]
  dsimp only
  rw [run_bind, hnew]
  dsimp only
  rw [hinit]
  rfl

/-- `new` with parentheses calls the class that the name means. -/
theorem new_object_run (hclass : lookupClass className state = (.ok id, state)) (fuel : Nat) :
    evaluate (fuel + 1) (.newObject className []) state =
      instantiate (evaluate fuel) id [] state := by
  show (lookupClass className >>= fun id =>
    values (evaluate fuel) [] >>= instantiate (evaluate fuel) id) state = _
  rw [run_bind, hclass]
  rfl

/-- `new` with braces makes an instance also of a class with `__init__`, which is not called, and of
a struct. -/
theorem new_record_run (hclass : lookupClass className state = (.ok id, state))
    (hkind : (state.world.heap.classDef id).kind ≠ .enum) (fuel : Nat) :
    evaluate (fuel + 1) (.newRecord className []) state =
      (.ok (.object state.world.heap.instances.next), state.withNew id) := by
  show newRecord (evaluate fuel) className [] state = _
  unfold newRecord
  rw [run_bind, hclass]
  show (if (state.world.heap.classDef id).kind = .enum then _ else _ : Eval Value) state = _
  rw [if_neg hkind]
  rfl

end Eval

/-- In every state that occurs, searching for a field of a class finds what the table of all its
fields has under the name, and nothing if the table does not have the name. So a new instance reads
like its class: one that a class without `__init__` makes when it is called, by its name or with
`new`, and one that `new` makes of any class or struct without giving fields. -/
theorem inherited_fields_agree {state : EvalState} (hstate : state.Occurs) (id : ClassId) :
    let heap := state.world.heap
    (∀ name value, heap.findField? id name = some value ↔
      (heap.fieldDefaults id).get? name = some value) ∧
    (∀ name, heap.findField? id name = none ↔ name ∉ (heap.fieldDefaults id).names) ∧
    ((heap.classDef id).kind = .regular → heap.findMethod? id "__init__" = none →
      ∀ ev, Eval.MakesAlike state id (Eval.callValue ev (.classObject id) [])) ∧
    ∀ className, Eval.lookupClass className state = (.ok id, state) → ∀ fuel,
      ((heap.classDef id).kind = .regular → heap.findMethod? id "__init__" = none →
        Eval.MakesAlike state id (Eval.evaluate (fuel + 1) (.newObject className []))) ∧
      ((heap.classDef id).kind ≠ .enum →
        Eval.MakesAlike state id (Eval.evaluate (fuel + 1) (.newRecord className []))) := by
  intro heap
  have hshaped : heap.Shaped := hstate.shaped.heap
  have hviews := hshaped.get_field_defaults id
  have hnotEnum (hkind : (heap.classDef id).kind = .regular) : (heap.classDef id).kind ≠ .enum := by
    rw [hkind]
    exact nofun
  refine ⟨fun name value => by rw [hviews], fun name => ?_, fun hkind hinit ev => ?_,
    fun className hclass fuel => ⟨fun hkind hinit => ?_, fun hkind => ?_⟩⟩
  · rw [← hviews, ← Table.contains_iff, Table.contains, Option.not_isSome_iff_eq_none]
  · exact Eval.makes_alike_of_run hshaped (hnotEnum hkind) (Eval.instantiate_run ev hkind hinit)
  · have hcalled := Eval.instantiate_run (Eval.evaluate fuel) hkind hinit
    exact Eval.makes_alike_of_run hshaped (hnotEnum hkind)
      ((Eval.new_object_run hclass fuel).trans hcalled)
  · exact Eval.makes_alike_of_run hshaped hkind (Eval.new_record_run hclass hkind fuel)

/-- Three classes in a row, the second and third of which redefine `a`: the last has `a` from itself
and `b`, which is null, from the first. -/
theorem inherited_fields_agree_overridden :
    let statements : List Expr :=
      [.defineClass "A" [] [.assign "a" (.int 1), .assign "b" .null],
        .defineClass "B" ["A"] [.assign "a" (.int 2)],
        .defineClass "C" ["B"] [.letBind "a" (.int 3)]]
    let state := EvalState.afterStatements statements
    let heap := state.world.heap
    state.Occurs ∧ heap.lineage 2 = [2, 1, 0] ∧
      (heap.fieldDefaults 2).entries = [("a", .int 3), ("b", .null)] ∧
      heap.findField? 2 "a" = some (.int 3) ∧ heap.findField? 2 "b" = some .null ∧
      heap.findField? 2 "c" = none ∧
      (heap.classDef 2).kind = .regular ∧ heap.findMethod? 2 "__init__" = none ∧
      Eval.lookupClass "C" state = (.ok 2, state) ∧
      Eval.MakesAlike state 2 (Eval.callValue (Eval.evaluate 5) (.classObject 2) []) ∧
      Eval.MakesAlike state 2 (Eval.evaluate 1 (.newObject "C" [])) ∧
      Eval.MakesAlike state 2 (Eval.evaluate 1 (.newRecord "C" [])) := by
  intro statements state heap
  have hends : (Eval.body (Eval.evaluate 5) statements
      (Interpreter.fresh 1000 (Console.ofInput "")).started).1 = .ok .null := rfl
  have hoccurs : state.Occurs := EvalState.occurs_after_statements (Prod.ext hends rfl)
  have hentries : (heap.fieldDefaults 2).entries = [("a", .int 3), ("b", .null)] := rfl
  have hget (name : String) : (heap.fieldDefaults 2).get? name =
      [("a", .int 3), ("b", .null)].lookup name :=
    congrArg (·.lookup name) hentries
  have hnames : (heap.fieldDefaults 2).names = ["a", "b"] := congrArg (·.map (·.1)) hentries
  have hkind : (heap.classDef 2).kind = .regular := rfl
  have hinit : heap.findMethod? 2 "__init__" = none := rfl
  have hclass : Eval.lookupClass "C" state = (.ok 2, state) := rfl
  obtain ⟨hfound, hmissing, hcalled, hnew⟩ := inherited_fields_agree hoccurs 2
  obtain ⟨hobject, hrecord⟩ := hnew "C" hclass 0
  exact ⟨hoccurs, rfl, hentries, (hfound _ _).mpr (hget "a"), (hfound _ _).mpr (hget "b"),
    (hmissing "c").mpr (hnames ▸ by decide), hkind, hinit, hclass, hcalled hkind hinit _,
    hobject hkind hinit, hrecord (hkind ▸ nofun)⟩

end Script
