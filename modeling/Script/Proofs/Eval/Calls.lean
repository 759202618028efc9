import Script.Proofs.Eval.Account

/-!
# The calls of functions that a rule makes

`Eval.Calls` lists the calls of functions that the rules of the constructs make, each with the state
in which it is made. A call has to pass two checks before the body of the function runs: there must
be an argument for each parameter, and the depth of calls must be below its limit.
`EvalState.Refuses` says of a call that the second check is the one that refuses it.
`Eval.MeetsLimit` says of an evaluation that it meets the limit on the depth of calls: in its course
some call is refused so, or some value is nested too deeply for the room that the limit leaves.
-/

namespace Script

/-- A call with the right number of arguments is refused, since calls are nested too deeply. -/
structure EvalState.Refuses (state : EvalState) (id : FunctionId) (items : List Value)
    (receiver : Option InstanceId) : Prop where
  count : items.length = ((state.world.heap.function id).openParameters receiver).length
  limit : state.world.maxDepth ≤ state.world.depth

namespace Eval

/-- The function that calling a value calls, its receiver, and the state in which it is called. The
call of a class makes an instance first. -/
inductive Invokes (state : EvalState) :
    Value → FunctionId → Option InstanceId → EvalState → Prop where
  | function (id : FunctionId) : Invokes state (.function id) id none state
  | method (mark : Nat) (receiver : InstanceId) (id : FunctionId) :
      Invokes state (.boundMethod mark receiver id) id (some receiver) state
  | init {id : ClassId} {method : FunctionId} {object : InstanceId} {after : EvalState}
      (hkind : (state.world.heap.classDef id).kind = .regular)
      (hmethod : state.world.heap.findMethod? id "__init__" = some method)
      (hnew : perform (Action.newInstance ⟨id, state.world.heap.fieldDefaults id⟩) state =
        (.ok object, after)) :
      Invokes state (.classObject id) method (some object) after

/-- The calls of functions that the rule of a construct makes, and the states in which it makes
them. -/
inductive Calls (ev : Evaluator) : Expr → EvalState → FunctionId → List Value →
    Option InstanceId → EvalState → Prop where
  | named {name : String} {items : List Expr} {id : FunctionId} {arguments : List Value}
      {state inner : EvalState} (hname : state.world.functions.get? name = some id)
      (hvalues : values ev items state = (.ok arguments, inner)) :
      Calls ev (.call (.name name) items) state id arguments none inner
  | value {callee : Expr} {items : List Expr} {target : Value} {arguments : List Value}
      {id : FunctionId} {receiver : Option InstanceId} {state after inner : EvalState}
      (hname : ∀ name, callee = .name name → state.world.functions.get? name = none)
      (hvalues : values ev (callee :: items) state = (.ok (target :: arguments), after))
      (hinvokes : Invokes after target id receiver inner) :
      Calls ev (.call callee items) state id arguments receiver inner
  | method {object : Expr} {name : String} {items : List Expr} {owner target : Value}
      {arguments : List Value} {id : FunctionId} {receiver : Option InstanceId}
      {state middle after inner : EvalState}
      (hvalues : values ev (object :: items) state = (.ok (owner :: arguments), middle))
      (howner : owner.HasFields)
      (htarget : getAttribute owner name middle = (.ok target, after))
      (hinvokes : Invokes after target id receiver inner) :
      Calls ev (.methodCall object name items) state id arguments receiver inner
  | newObject {className : String} {items : List Expr} {classId : ClassId}
      {arguments : List Value} {id : FunctionId} {receiver : Option InstanceId}
      {state middle after inner : EvalState}
      (hclass : lookupClass className state = (.ok classId, middle))
      (hvalues : values ev items middle = (.ok arguments, after))
      (hinvokes : Invokes after (.classObject classId) id receiver inner) :
      Calls ev (.newObject className items) state id arguments receiver inner

/-- With stops, no other calls are made than without. -/
theorem Calls.of_stopped {ev : Evaluator} {questions : Expr → EvalState → Prop} {mark : Heap}
    {expr : Expr} {id : FunctionId} {items : List Value} {receiver : Option InstanceId}
    {state inner : EvalState}
    (h : Calls (stopped ev questions mark) expr state id items receiver inner) :
    Calls ev expr state id items receiver inner := by
  cases h with
  | named hname hvalues => exact .named hname (values_of_stopped hvalues)
  | value hname hvalues hinvokes => exact .value hname (values_of_stopped hvalues) hinvokes
  | method hvalues howner htarget hinvokes =>
      exact .method (values_of_stopped hvalues) howner htarget hinvokes
  | newObject hclass hvalues hinvokes =>
      exact .newObject hclass (values_of_stopped hvalues) hinvokes

/-- In the course of an evaluation a limit is met: a call is refused, since calls are nested too
deeply, or the machine reports that a value is nested too deeply, as it does first where such a
value is shown or compared. A handler may go on after both. -/
inductive MeetsLimit (fuel : Nat) (expr : Expr) (state : EvalState) : Prop where
  | refused {rest : Nat} {last : Expr} {final inner : EvalState} {id : FunctionId}
      {items : List Value} {receiver : Option InstanceId}
      (hincludes : Includes fuel expr state (rest + 1) last final)
      (hcalls : Calls (evaluate rest) last final id items receiver inner)
      (hrefuses : inner.Refuses id items receiver)
  | tooDeep {rest : Nat} {last : Expr} {final : EvalState}
      (hincludes : Includes fuel expr state rest last final)
      (hdeep : (evaluate rest last final).1 = .error (.fault .recursion))

variable {fuel : Nat} {expr part : Expr} {state inner : EvalState}

theorem MeetsLimit.inside (hconsults : Consults fuel expr state part inner)
    (h : MeetsLimit fuel part inner) : MeetsLimit (fuel + 1) expr state := by
  cases h with
  | refused hincludes hcalls hrefuses =>
      exact .refused (.inside hconsults hincludes) hcalls hrefuses
  | tooDeep hincludes hdeep => exact .tooDeep (.inside hconsults hincludes) hdeep

/-- If the machine does not report a limit in the end, then a call is refused by the rule of the
construct itself, or a limit is met in the course of evaluating a part. -/
theorem MeetsLimit.here_or_inside (h : MeetsLimit (fuel + 1) expr state)
    (hend : (evaluate (fuel + 1) expr state).1 ≠ .error (.fault .recursion)) :
    (∃ id items receiver inner, Calls (evaluate fuel) expr state id items receiver inner ∧
      inner.Refuses id items receiver) ∨
    ∃ part inner, Consults fuel expr state part inner ∧ MeetsLimit fuel part inner := by
  cases h with
  | refused hincludes hcalls hrefuses =>
      cases hincludes with
      | here => exact .inl ⟨_, _, _, _, hcalls, hrefuses⟩
      | inside hconsults hincludes =>
          exact .inr ⟨_, _, hconsults, .refused hincludes hcalls hrefuses⟩
  | tooDeep hincludes hdeep =>
      cases hincludes with
      | here => exact (hend hdeep).elim
      | inside hconsults hincludes => exact .inr ⟨_, _, hconsults, .tooDeep hincludes hdeep⟩

/-- A block makes no calls but those of its statements. -/
theorem MeetsLimit.of_block {exprs : List Expr} (h : MeetsLimit (fuel + 1) (.block exprs) state)
    (hend : (evaluate (fuel + 1) (.block exprs) state).1 ≠ .error (.fault .recursion)) :
    ∃ done part rest value inner, exprs = done ++ part :: rest ∧
      body (evaluate fuel) done state = (.ok value, inner) ∧ MeetsLimit fuel part inner := by
  obtain ⟨_, _, _, _, hcalls, -⟩ | ⟨part, inner, hconsults, hpart⟩ := h.here_or_inside hend
  · cases hcalls
  · obtain ⟨done, rest, value, hexprs, hdone⟩ := hconsults.of_block
    exact ⟨done, part, rest, value, inner, hexprs, hdone, hpart⟩

/-- A call of a function without arguments is refused itself, or makes the calls of its body. -/
theorem MeetsLimit.of_call {name : String} {id : FunctionId}
    (hname : state.world.functions.get? name = some id)
    (h : MeetsLimit (fuel + 1) (.call (.name name) []) state)
    (hend : (evaluate (fuel + 1) (.call (.name name) []) state).1 ≠
      .error (.fault .recursion)) :
    state.world.maxDepth ≤ state.world.depth ∨
      ∃ part ∈ (state.world.heap.function id).body, ∃ inner, MeetsLimit fuel part inner := by
  obtain ⟨_, _, _, _, hcalls, hrefuses⟩ | ⟨part, inner, hconsults, hpart⟩ :=
    h.here_or_inside hend
  · cases hcalls with
    | named _ hvalues =>
        cases hvalues
        exact .inl hrefuses.limit
    | value hnone => cases hname.symm.trans (hnone name rfl)
  · refine .inr ⟨part, ?_, inner, hpart⟩
    -- A call asks for the statements of the body only.
    by_contra hbody
    obtain ⟨other, hother, hdiffers⟩ := hconsults
    have hsame (inner : EvalState) :
        body other (state.world.heap.function id).body inner =
          body (evaluate fuel) (state.world.heap.function id).body inner := by
      refine statements_congr fun done asked rest value current hexprs _ => ?_
      refine hother asked current (.inl ?_)
      rintro rfl
      exact hbody (hexprs ▸ List.mem_append_right done List.mem_cons_self)
    refine hdiffers ?_
    show call other (.name name) [] state = call (evaluate fuel) (.name name) [] state
    rw [call_run_function hname, call_run_function hname]
    show callFunction other id [] none state = callFunction (evaluate fuel) id [] none state
    rw [call_function_run, call_function_run]
    dsimp only
    rw [funext hsame]

/-- No limit is met in the course of evaluating a literal. -/
theorem MeetsLimit.not_int (n : Nat) : ¬MeetsLimit (fuel + 1) (.int n) state := by
  intro h
  obtain ⟨_, _, _, _, hcalls, -⟩ | ⟨_, _, ⟨_, -, hdiffers⟩, -⟩ := h.here_or_inside nofun
  · cases hcalls
  · exact hdiffers rfl

/-- No limit is met when a function is defined. -/
theorem MeetsLimit.not_definition (name : String) (parameters : List String) (exprs : List Expr) :
    ¬MeetsLimit (fuel + 1) (.defineFunction name parameters exprs) state := by
  intro h
  have hend : (evaluate (fuel + 1) (.defineFunction name parameters exprs) state).1 ≠
      .error (.fault .recursion) := by
    show (defineFunction name parameters exprs state).1 ≠ _
    unfold defineFunction makeFunction
    cases parameters.find? fun parameter => (frozenValue? parameter).isSome <;> nofun
  obtain ⟨_, _, _, _, hcalls, -⟩ | ⟨_, _, ⟨_, -, hdiffers⟩, -⟩ := h.here_or_inside hend
  · cases hcalls
  · exact hdiffers rfl

end Eval

end Script
