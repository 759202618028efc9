import Script.Proofs.Eval.ClassFlow
import Script.Proofs.Eval.FrozenNames
import Script.Proofs.Eval.Inclusion
import Script.Proofs.Eval.Timeline

/-!
# Classes and instances in every state

In every state that occurs the classes form a hierarchy and the instances of structs have the fields
that these declare. Well shaped states stay so between programs and wherever a program evaluates an
expression; `Eval.Consults.shaped` is the step for the latter, since a rule that is run in a well
shaped state asks for the evaluation of its parts in well shaped states only. What there is of
classes and instances is kept in all states that come later, since evaluation adds to them and takes
nothing away (`EvalState.Becomes.extends`).
-/

namespace Script

namespace Heap

/-- A heap that is not well shaped: its one class is derived from itself. -/
def looped : Heap :=
  { empty 0 with classes := (empty 0).classes.push ⟨"A", .regular, some 0, .empty, .empty, []⟩ }

theorem not_shaped_looped : ¬looped.Shaped := by
  intro h
  have hbase : (looped.classDef 0).base = some 0 := rfl
  exact (lt_irrefl (0 : Nat)) (h.base hbase).1

/-- The classes are derived from each other without a circle, up to classes that have no base. -/
structure Hierarchy (heap : Heap) : Prop where
  /-- Following the bases never comes back to a class. -/
  acyclic {id base : ClassId} (h : (heap.classDef id).base = some base) : ¬heap.Derives base id
  /-- A base is a class that exists, and no struct or enumeration. -/
  base {id base : ClassId} (h : (heap.classDef id).base = some base) :
    base < heap.classes.next ∧ (heap.classDef base).kind = .regular
  /-- Structs and enumerations have no base. -/
  baseless {id : ClassId} (h : (heap.classDef id).kind ≠ .regular) :
    (heap.classDef id).base = none
  /-- The lineage of a class is the whole chain of its bases, up to one that has no base. -/
  chain (id : ClassId) : heap.BaseChain id (heap.lineage id)
  /-- The lineage has no class twice. -/
  nodup (id : ClassId) : (heap.lineage id).Nodup
  subclass_refl (id : ClassId) : heap.isSubclass id id = true
  subclass_antisymm {id other : ClassId} (h : heap.isSubclass id other = true)
    (h' : heap.isSubclass other id = true) : id = other
  subclass_trans {id middle other : ClassId} (h : heap.isSubclass id middle = true)
    (h' : heap.isSubclass middle other = true) : heap.isSubclass id other = true

theorem Shaped.hierarchy {heap : Heap} (h : heap.Shaped) : heap.Hierarchy where
  acyclic hbase := h.not_derives_of_base hbase
  base {id base} hbase := by
    obtain ⟨hlt, hregular, -⟩ := h.base hbase
    refine ⟨hlt.trans ?_, hregular⟩
    by_contra hout
    have hdefault : heap.classDef id = default := Store.get_of_le (not_lt.mp hout)
    rw [hdefault] at hbase
    cases hbase
  baseless {id} hkind := by
    cases hbase : (heap.classDef id).base with
    | none => rfl
    | some base => exact (hkind (h.base hbase).2.2).elim
  chain := h.base_chain_lineage
  nodup := h.nodup_lineage
  subclass_refl id := h.is_subclass_iff.mpr (.self id)
  subclass_antisymm hsub hsub' :=
    h.derives_antisymm (h.is_subclass_iff.mp hsub) (h.is_subclass_iff.mp hsub')
  subclass_trans hsub hsub' :=
    h.is_subclass_iff.mpr ((h.is_subclass_iff.mp hsub).trans (h.is_subclass_iff.mp hsub'))

/-- The instances of structs have exactly the fields of these, in the order of the declaration. -/
def RecordsComplete (heap : Heap) : Prop :=
  ∀ id < heap.instances.next, (heap.classOf id).kind = .struct →
    (heap.instanceOf id).fields.names = (heap.classOf id).fields.names

end Heap

namespace Eval

open EvalState

variable {α : Type} {classes : Store ClassDef} {good : [KnownClasses] → α → Prop}

theorem Kept.shaped {outcome : Except Exit α × EvalState} (h : Kept classes good outcome) :
    outcome.2.Shaped := by
  cases h with
  | ok _ hshaped => exact hshaped
  | error _ hshaped => exact hshaped

variable {fuel : Nat} {expr part : Expr} {state inner : EvalState}

/-- In a well shaped state, parts are evaluated in well shaped states only. -/
theorem Consults.shaped (h : Consults fuel expr state part inner) (hstate : state.Shaped) :
    inner.Shaped := by
  by_contra hbroken
  obtain ⟨other, hother, hdiffers⟩ := h
  let here (asked : Expr) (current : EvalState) : Prop := asked = part ∧ current = inner
  let halting : Evaluator := stopped (evaluate fuel) here .looped
  -- A rule that stops at the part leaves a well shaped heap, so it has not come to the stop.
  have hhalting (asked : Expr) (classes : Store ClassDef) :
      Keeps classes Value.Sound (halting asked) := by
    intro current hgrows hshaped
    have helsewhere : ¬here asked current := fun hhere => hbroken (hhere.2 ▸ hshaped)
    show Kept current.classes Value.Sound (stopped (evaluate fuel) here .looped asked current)
    unfold stopped
    rw [if_neg helsewhere]
    exact keeps_evaluate fuel asked classes current hgrows hshaped
  have hstep : Keeps state.classes Value.Sound (step halting fuel expr) :=
    keeps_step hhalting fuel expr
  have hgoes : ¬AtStop .looped (step halting fuel expr state) := fun hstop =>
    Heap.not_shaped_looped (hstop.heap ▸ (hstep state (.refl _) hstate).shaped.heap)
  have hsame {ev : Evaluator} (hev : stopped ev here .looped = halting) :
      step halting fuel expr state = step ev fuel expr state := by
    have hstoppable : Stoppable ev .looped fun ev => step ev fuel expr state :=
      step_stoppable fuel expr state
    obtain heq | ⟨hat, -⟩ := hstoppable here
    · exact hev ▸ heq
    · exact (hgoes (hev ▸ hat)).elim
  have hstopped : stopped other here .looped = halting := by
    funext asked current
    show stopped other here .looped asked current =
      stopped (evaluate fuel) here .looped asked current
    unfold stopped
    by_cases hhere : here asked current
    · rw [if_pos hhere, if_pos hhere]
    · rw [if_neg hhere, if_neg hhere]
      exact hother asked current (not_and_or.mp hhere)
  exact hdiffers ((hsame hstopped).symm.trans (hsame rfl))

/-- A program that is started in a well shaped state evaluates expressions in such states only. -/
theorem Visits.shaped (h : Visits fuel expr state inner) (hstate : state.Shaped) :
    inner.Shaped := by
  induction h with
  | here => exact hstate
  | inside hconsults _ ih => exact ih (hconsults.shaped hstate)

end Eval

/-- A new error leaves a well shaped state well shaped. -/
theorem EvalState.Shaped.new_error {state : EvalState} (h : state.Shaped) (kind : ErrorKind)
    (arguments : List String) :
    (Eval.perform (Action.newError kind arguments) state).2.Shaped := by
  have hnew : (Action.newError kind arguments).Within .none := Action.within_new_error _ _
  have hkeeps : Eval.Keeps state.classes (fun _ => True)
      (Eval.perform (Action.newError kind arguments)) :=
    Eval.keeps_perform hnew.spares fun _ _ => Action.keeps_new_error kind arguments
  exact (hkeeps state (.refl _) h).shaped

namespace Interpreter

variable {interpreter : Interpreter}

theorem shaped_raise_faults {run : Eval Value} {state : EvalState}
    (h : (run state).2.Shaped) : (raiseFaults run state).2.Shaped := by
  unfold raiseFaults
  rcases hrun : run state with ⟨result, after⟩
  rw [hrun] at h
  split
  · rename_i hfault
    cases hfault
    exact h.new_error _ _
  · rename_i hfault
    cases hfault
    exact h.new_error _ _
  · rename_i hfault
    cases hfault
    exact h.new_error _ _
  · exact h

theorem shaped_started (h : interpreter.state.Shaped) : interpreter.started.Shaped :=
  h.with_scope rfl rfl h.scope_sound

/-- The state between programs is well shaped. -/
theorem Reachable.shaped (h : interpreter.Reachable) : interpreter.state.Shaped := by
  induction h with
  | fresh maxDepth console =>
      exact ⟨.empty maxDepth, fun _ _ => ⟨.empty, .empty maxDepth⟩, nofun⟩
  | log event _ ih => exact ih.with_scope rfl rfl ih.scope_sound
  | throwNew kind arguments _ ih => exact ih.new_error kind arguments
  | @runProgram interpreter fuel program _ ih =>
      rw [state_run_program]
      have hkeeps : Eval.Keeps interpreter.started.classes Value.Sound
          (Eval.body (Eval.evaluate fuel) program) :=
        Eval.keeps_body (Eval.keeps_evaluate fuel) program
      have hkept := hkeeps interpreter.started (.refl _) (shaped_started ih)
      exact shaped_raise_faults hkept.at_boundary.shaped

end Interpreter

/-- Every state that occurs is well shaped. -/
theorem EvalState.Occurs.shaped {state : EvalState} (h : state.Occurs) : state.Shaped := by
  cases h with
  | between hreachable => exact hreachable.shaped
  | during hreachable hvisits => exact hvisits.shaped (Interpreter.shaped_started hreachable.shaped)

namespace EvalState

variable {state later : EvalState}

/-- Evaluation adds classes and instances and sets fields, and does no more to either. -/
theorem Becomes.extends (h : state.Becomes later) :
    state.world.heap.Extends later.world.heap := by
  induction h with
  | trans _ _ ih ih' => exact ih.trans ih'
  | operation state hevolves => exact .of_eq hevolves.classes_eq hevolves.instances_eq
  | newInstance state contents => exact .push_instance _ contents
  | setField state id name value => exact .set_field _ id name value
  | newClass state definition => exact .push_class _ definition
  | call henters _ ih =>
      cases henters
      exact ih
  | comprehension _ _ ih ih' => exact ih.trans ih'
  | _ => exact .of_eq rfl rfl

/-- The classes and instances of a state are there in all states that come later. -/
theorem Precedes.extends (h : state.Precedes later) :
    state.world.heap.Extends later.world.heap := by
  induction h with
  | becomes hbecomes => exact hbecomes.extends
  | enters henters =>
      cases henters
      exact .refl _
  | trans _ _ ih ih' => exact ih.trans ih'
  | _ => exact .refl _

end EvalState

/-- In every state that occurs, the classes form a hierarchy and the instances of structs have
exactly the fields that these declare. In all states that come later, the classes are what they
were, and the instances have the fields that they had. -/
theorem classes_stay_in_shape {state : EvalState} (hstate : state.Occurs) :
    state.world.heap.Hierarchy ∧ state.world.heap.RecordsComplete ∧
      ∀ later, state.Precedes later → state.world.heap.Extends later.world.heap :=
  have hshaped := hstate.shaped.heap
  ⟨hshaped.hierarchy, fun _ hid => hshaped.fields hid, fun _ hprecedes => hprecedes.extends⟩

/-- A class that is derived from an older one of the same name, a struct with two fields, and an
instance that has been given one of them. Later there is a third class of that name. -/
theorem classes_stay_in_shape_under_one_name :
    let state := EvalState.afterStatements
      [.defineClass "A" [] [], .defineClass "A" ["A"] [], .defineStruct "P" ["x", "y"],
        .letBind "p" (.newRecord "P" [("y", .int 1)])]
    let later := (Eval.evaluate 5 (.defineClass "A" ["A"] []) state).2
    state.Occurs ∧ state.Precedes later ∧
      state.world.heap.Hierarchy ∧ state.world.heap.lineage 1 = [1, 0] ∧
      (state.world.heap.instanceOf 0).fields.names = ["x", "y"] ∧
      state.world.heap.Extends later.world.heap ∧ later.world.heap.lineage 3 = [3, 1, 0] := by
  intro state later
  have hoccurs : state.Occurs := EvalState.occurs_after_statements rfl
  have hprecedes : state.Precedes later :=
    .becomes (Eval.evaluate_becomes 5 _ state)
  obtain ⟨hhierarchy, hcomplete, hextends⟩ := classes_stay_in_shape hoccurs
  have hexists : 0 < state.world.heap.instances.next := Nat.zero_lt_one
  exact ⟨hoccurs, hprecedes, hhierarchy, rfl, hcomplete 0 hexists rfl, hextends later hprecedes,
    rfl⟩

end Script
