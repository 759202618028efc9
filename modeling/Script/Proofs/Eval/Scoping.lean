import Script.Proofs.Eval.Constants

/-!
# Which scope a construct binds its names in

Three constructs bind several names, or bind them in a copy of the scope. A call binds the receiver
and the parameters in a copy of the caller's scope (`Eval.call_frame`); the parameters are variables
there, but the name `self` is as constant as it is for the caller. A destructuring assignment binds
its names one after the other, so an assignment that comes to a name that cannot be bound has bound
those before it (`Eval.destructure_stops`). A comprehension evaluates its elements in a copy of the
scope that has been taken before its iterable is evaluated (`Eval.comprehension_unrolled`).
-/

namespace Script

/-! ## Names bound one after the other -/

namespace Scope

/-- After names have been bound one after the other, each has the last value it was given. -/
theorem get?_foldl {bindOne : Scope → String × Value → Scope}
    (hbind : ∀ scope pair name, (bindOne scope pair).get? name =
      if name = pair.1 then some pair.2 else scope.get? name)
    (pairs : List (String × Value)) (scope : Scope) (name : String) :
    (pairs.foldl bindOne scope).get? name =
      (pairs.reverse.lookup name).or (scope.get? name) := by
  induction pairs generalizing scope with
  | nil => rfl
  | cons pair pairs ih =>
      rw [List.foldl_cons, ih, hbind, List.reverse_cons, List.lookup_append, Option.or_assoc]
      congr 1
      obtain ⟨bound, value⟩ := pair
      by_cases hname : name = bound
      · subst hname
        rw [if_pos rfl, List.lookup_cons_self, Option.some_or]
      · have hother : List.lookup name [(bound, value)] = none :=
          List.lookup_eq_none_iff.mpr (by simpa using hname)
        rw [if_neg hname, hother, Option.none_or]

/-- Binding variables one after the other. -/
def bindAll (scope : Scope) (pairs : List (String × Value)) : Scope :=
  pairs.foldl (fun scope pair => scope.bind pair.1 pair.2) scope

theorem get?_bindAll (scope : Scope) (pairs : List (String × Value)) (name : String) :
    (scope.bindAll pairs).get? name = (pairs.reverse.lookup name).or (scope.get? name) :=
  get?_foldl (fun scope pair name => scope.get?_bind pair.1 name pair.2) pairs scope name

theorem isConstant_bindAll (scope : Scope) (pairs : List (String × Value)) (name : String) :
    (scope.bindAll pairs).isConstant name = scope.isConstant name := by
  induction pairs generalizing scope with
  | nil => rfl
  | cons pair pairs ih => exact (ih (scope.bind pair.1 pair.2)).trans (scope.isConstant_bind ..)

/-! ## The frame of a call -/

/-- The scope of a call binds the parameters to the arguments, then the receiver to the name `self`,
and all other names as the caller does. -/
theorem get?_forCall (caller : Scope) (receiver : Option Value) (arguments : List (String × Value))
    (name : String) :
    (caller.forCall receiver arguments).get? name =
      (arguments.reverse.lookup name).or
        ((if name = "self" then receiver else none).or (caller.get? name)) := by
  unfold forCall
  rw [get?_foldl fun scope pair name => scope.get?_bindParameter pair.1 name pair.2]
  congr 1
  cases receiver with
  | none => rw [ite_self, Option.none_or]
  | some value =>
      dsimp only
      rw [get?_bind]
      split <;> rfl

/-- The parameters are variables in the scope of a call, and all other names, `self` among them, are
as constant as they are for the caller. -/
theorem isConstant_forCall_iff (caller : Scope) (receiver : Option Value)
    (arguments : List (String × Value)) (name : String) :
    (caller.forCall receiver arguments).isConstant name = true ↔
      name ∉ arguments.map (·.1) ∧ caller.isConstant name = true := by
  have hparameters (scope : Scope) :
      (arguments.foldl (fun scope pair => scope.bindParameter pair.1 pair.2) scope).isConstant name
        = true ↔ name ∉ arguments.map (·.1) ∧ scope.isConstant name = true := by
    induction arguments generalizing scope with
    | nil => simp
    | cons pair arguments ih =>
        rw [List.foldl_cons, ih, isConstant_bindParameter_iff, List.map_cons, List.mem_cons, not_or]
        exact ⟨fun ⟨hrest, hne, h⟩ => ⟨⟨hne, hrest⟩, h⟩, fun ⟨⟨hne, hrest⟩, h⟩ => ⟨hrest, hne, h⟩⟩
  unfold forCall
  rw [hparameters]
  cases receiver with
  | none => exact .rfl
  | some value =>
      dsimp only
      rw [isConstant_bind]

/-- The name is frozen or constant, so that it cannot be bound. -/
def Protects (scope : Scope) (name : String) : Prop :=
  (frozenValue? name).isSome ∨ scope.isConstant name = true

instance (scope : Scope) (name : String) : Decidable (scope.Protects name) :=
  inferInstanceAs (Decidable (_ ∨ _))

/-- Binding a variable does not change which names can be bound. -/
theorem protects_bind_iff (scope : Scope) (bound name : String) (value : Value) :
    (scope.bind bound value).Protects name ↔ scope.Protects name := by
  unfold Protects
  rw [isConstant_bind]

end Scope

/-- The names that a call binds: the parameters that it gives arguments for, and `self` if there is
a receiver. -/
def FunctionDef.boundNames (definition : FunctionDef) (receiver : Option InstanceId) :
    List String :=
  definition.openParameters receiver ++ if receiver.isSome then ["self"] else []

theorem FunctionDef.mem_boundNames_iff {definition : FunctionDef} {receiver : Option InstanceId}
    {name : String} :
    name ∈ definition.boundNames receiver ↔
      name ∈ definition.openParameters receiver ∨ receiver.isSome ∧ name = "self" := by
  cases receiver <;> simp [boundNames]

namespace Eval

variable {state : EvalState} {name : String}

/-- A name that can be bound is bound. -/
theorem bind_name_of_free (h : ¬state.scope.Protects name) (value : Value) :
    bindName name value state = (.ok (), { state with scope := state.scope.bind name value }) := by
  obtain ⟨hfrozen, hconstant⟩ := not_or.mp h
  have hcheck : checkWritable name state = (.ok (), state) := by
    unfold checkWritable
    simp only [hfrozen]
    show (if state.scope.isConstant name then _ else _ : Eval Unit) state = _
    rw [if_neg hconstant]
    rfl
  unfold bindName
  rw [run_bind, hcheck]
  rfl

/-- A name that cannot be bound is refused, and the scope stays as it is. -/
theorem bind_name_of_protected (h : state.scope.Protects name) (value : Value) :
    ∃ error heap, bindName name value state = (.error (.thrown error), state.withHeap heap) := by
  have hraise (message : String) : ∃ error heap,
      (raise .typeError message : Eval Unit) state =
        (.error (.thrown error), state.withHeap heap) :=
    ⟨_, _, rfl⟩
  have hcheck : ∃ error heap,
      checkWritable name state = (.error (.thrown error), state.withHeap heap) := by
    unfold checkWritable
    by_cases hfrozen : (frozenValue? name).isSome
    · obtain ⟨error, heap, hrun⟩ := hraise s!"cannot assign to {name}"
      refine ⟨error, heap, ?_⟩
      simp only [hfrozen, if_true, run_bind, hrun]
    · obtain ⟨error, heap, hrun⟩ := hraise s!"cannot reassign constant '{name}'"
      refine ⟨error, heap, ?_⟩
      simp only [hfrozen]
      show (if state.scope.isConstant name then _ else _ : Eval Unit) state = _
      rw [if_pos (h.resolve_left hfrozen), hrun]
  obtain ⟨error, heap, hrun⟩ := hcheck
  refine ⟨error, heap, ?_⟩
  unfold bindName
  rw [run_bind, hrun]

/-- A call with an argument for each parameter, below the limit on the depth of calls, evaluates the
body of the function in a scope of its own: the parameters are bound to the arguments in order, the
receiver to `self`, and all other names as for the caller. The parameters are variables there, and
all other names are as constant as for the caller. So the constants are those of the caller without
the names that the call binds, unless there is a receiver, `self` is constant for the caller, and no
argument is bound to it. -/
theorem call_frame (ev : Evaluator) (id : FunctionId) (items : List Value)
    (receiver : Option InstanceId) (state : EvalState)
    (hcount : items.length = ((state.world.heap.function id).openParameters receiver).length)
    (hdepth : state.world.depth < state.world.maxDepth) :
    let definition := state.world.heap.function id
    let parameters := definition.openParameters receiver
    let frame := state.frame id receiver items
    callFunction ev id items receiver state =
        atBoundary (inFrame frame (body ev definition.body)) state ∧
      (∀ name, frame.get? name =
        ((parameters.zip items).reverse.lookup name).or
          ((if name = "self" then receiver.map .object else none).or (state.scope.get? name))) ∧
      (∀ name ∈ parameters, frozenValue? name = none → ∀ value world,
        bindName name value ⟨frame, world⟩ = (.ok (), ⟨frame.bind name value, world⟩)) ∧
      (∀ name, frame.isConstant name = true ↔
        name ∉ parameters ∧ state.scope.isConstant name = true) ∧
      ((∀ name, frame.isConstant name = true ↔
          name ∉ definition.boundNames receiver ∧ state.scope.isConstant name = true) ↔
        ¬(receiver.isSome ∧ "self" ∉ parameters ∧ state.scope.isConstant "self" = true)) := by
  intro definition parameters frame
  have hnames : (parameters.zip items).map (·.1) = parameters :=
    List.map_fst_zip (Nat.le_of_eq hcount.symm)
  have hconstant (name : String) : frame.isConstant name = true ↔
      name ∉ parameters ∧ state.scope.isConstant name = true := by
    have hframe :=
      state.scope.isConstant_forCall_iff (receiver.map .object) (parameters.zip items) name
    rwa [hnames] at hframe
  refine ⟨?_, state.scope.get?_forCall _ _, fun name hname hfrozen value world => ?_,
    hconstant, ?_⟩
  · rw [call_function_run]
    dsimp only
    rw [if_neg (not_not.mpr hcount), if_neg (by omega)]
  · have hfree : ¬(EvalState.mk frame world).scope.Protects name := by
      rintro (hsome | hframe)
      · rw [hfrozen] at hsome
        cases hsome
      · exact ((hconstant name).mp hframe).1 hname
    exact bind_name_of_free hfree value
  · simp only [hconstant, FunctionDef.mem_boundNames_iff, not_or]
    constructor
    · rintro h ⟨hreceiver, hself, hcaller⟩
      exact ((h "self").mp ⟨hself, hcaller⟩).1.2 ⟨hreceiver, rfl⟩
    · intro h name
      refine ⟨fun ⟨hname, hcaller⟩ => ⟨⟨hname, ?_⟩, hcaller⟩, fun ⟨⟨hname, _⟩, hcaller⟩ =>
        ⟨hname, hcaller⟩⟩
      rintro ⟨hreceiver, rfl⟩
      exact h ⟨hreceiver, hname, hcaller⟩

/-- A method is called on an object with an argument for the parameter `x`, which it assigns to, by
a caller for whom `x` is constant. -/
theorem call_frame_of_method :
    let state := (evaluate 9 (.block [.constBind "x" (.int 1),
      .defineClass "C" [] [.defineFunction "m" ["self", "x"] [.assign "x" (.int 7)]],
      .call (.name "C") []]) ⟨.empty, .initial 10 (.ofInput "")⟩).2
    let frame := state.frame 0 (some 0) [.int 5]
    ((state.world.heap.function 0).openParameters (some 0)).length = 1 ∧
      state.world.depth < state.world.maxDepth ∧
      (callFunction (evaluate 9) 0 [.int 5] (some 0) state).1 = .ok (.int 7) ∧
      frame.get? "x" = some (.int 5) ∧ frame.get? "self" = some (.object 0) ∧
      state.scope.isConstant "x" = true ∧ ¬frame.isConstant "x" = true := by
  intro state frame
  have hdepth : state.world.depth < state.world.maxDepth := by decide
  obtain ⟨hcall, hget, -, hconstant, -⟩ :=
    call_frame (evaluate 9) 0 [.int 5] (some 0) state rfl hdepth
  refine ⟨rfl, hdepth, ?_, hget "x", hget "self", rfl, fun h => ((hconstant "x").mp h).1 ?_⟩
  · rw [hcall]
    rfl
  · exact List.mem_singleton.mpr rfl

/-- The receiver of a method stays constant if the caller has a constant `self`, and the method
cannot assign to it. -/
theorem receiver_stays_constant :
    let state := (evaluate 9 (.block [.constBind "self" (.int 1),
      .defineClass "C" [] [.defineFunction "m" ["self"] [.assign "self" (.int 2)]]])
        ⟨.empty, .initial 10 (.ofInput "")⟩).2
    let definition := state.world.heap.function 0
    definition.boundNames (some 0) = ["self"] ∧
      (state.frame 0 (some 0) []).get? "self" = some (.object 0) ∧
      (state.frame 0 (some 0) []).isConstant "self" = true ∧
      (evaluate 9 (.methodCall (.call (.name "C") []) "m" []) state).1 = .error (.thrown 0) :=
  ⟨rfl, rfl, rfl, rfl⟩

/-! ## Destructuring -/

/-- Names are bound one after the other up to the first that cannot be bound. -/
theorem bind_all_stops (pairs : List (String × Value)) (state : EvalState) :
    (bindAll pairs state).1 = .ok () ∨
      ∃ done refused later, pairs = done ++ refused :: later ∧
        (∀ pair ∈ done, ¬state.scope.Protects pair.1) ∧ state.scope.Protects refused.1 ∧
        (bindAll pairs state).2.scope = state.scope.bindAll done := by
  induction pairs generalizing state with
  | nil => exact .inl rfl
  | cons pair pairs ih =>
      have hrun : bindAll (pair :: pairs) state =
          (bindName pair.1 pair.2 >>= fun _ => bindAll pairs) state := rfl
      rw [hrun, run_bind]
      by_cases hpair : state.scope.Protects pair.1
      · obtain ⟨error, heap, hrefused⟩ := bind_name_of_protected hpair pair.2
        rw [hrefused]
        exact .inr ⟨[], pair, pairs, rfl, nofun, hpair, rfl⟩
      · rw [bind_name_of_free hpair pair.2]
        refine (ih { state with scope := state.scope.bind pair.1 pair.2 }).imp id ?_
        rintro ⟨done, refused, later, rfl, hdone, hrefused, hscope⟩
        simp only [Scope.protects_bind_iff] at hdone hrefused
        exact ⟨pair :: done, refused, later, rfl, List.forall_mem_cons.mpr ⟨hpair, hdone⟩, hrefused,
          hscope⟩

/-- An operation on the heap leaves the scope alone. -/
theorem perform_scope {α : Type} (action : Action α) (state : EvalState) :
    (perform action state).2.scope = state.scope := by
  unfold perform
  split <;> rfl

/-- Binding names to items, once there are items: their number is compared first. -/
theorem destructure_run {ev : Evaluator} (names : List String) {expr : Expr} {value : Value}
    {items : List Value} {heap : Heap} {state after : EvalState}
    (hvalue : ev expr state = (.ok value, after))
    (hitems : Builtin.itemsOf value after.world.heap = .ok (items, heap)) :
    (items.length ≠ names.length →
      ∃ message, destructure ev names expr state =
        raise .valueError message (after.withHeap heap)) ∧
    (items.length = names.length →
      destructure ev names expr state =
        (bindAll (names.zip items) >>= fun _ => pure value) (after.withHeap heap)) := by
  have hperform : perform (Builtin.itemsOf value) after = (.ok items, after.withHeap heap) := by
    unfold perform
    rw [hitems]
    rfl
  unfold destructure
  rw [run_bind, hvalue]
  dsimp only
  rw [run_bind, hperform]
  dsimp only
  refine ⟨fun hcount => ?_, fun hcount => ?_⟩
  · by_cases hfew : items.length < names.length
    · rw [if_pos hfew]
      exact ⟨_, rfl⟩
    · rw [if_neg hfew, if_pos (by omega)]
      exact ⟨_, rfl⟩
  · rw [if_neg (by omega), if_neg (by omega)]

/-- A part of names and items that are paired pairs these names with the items at the beginning. -/
theorem zip_of_append_eq_zip {names : List String} {items : List Value}
    {done later : List (String × Value)} (hcount : items.length = names.length)
    (h : names.zip items = done ++ later) :
    names = done.map (·.1) ++ later.map (·.1) ∧ (done.map (·.1)).zip items = done := by
  have hnames : (names.zip items).map (·.1) = names := List.map_fst_zip (by omega)
  have hitems : (names.zip items).map (·.2) = items := List.map_snd_zip (by omega)
  rw [h, List.map_append] at hnames hitems
  refine ⟨hnames.symm, ?_⟩
  have hlength : (done.map Prod.fst).length = (done.map Prod.snd).length := by
    rw [List.length_map, List.length_map]
  have hzip : (done.map Prod.fst ++ []).zip (done.map Prod.snd ++ later.map Prod.snd) = _ :=
    List.zip_append hlength
  rw [List.append_nil, List.zip_map', List.zip_nil_left, List.append_nil, List.map_id'] at hzip
  rwa [← hitems]

/-- A destructuring assignment that fails after its right-hand side has a value. If there is not one
item for each name, no binding has changed. Otherwise some name is frozen or constant, and the names
before the first such name have been bound to their items, in order, and no others. -/
theorem destructure_stops {fuel : Nat} {names : List String} {expr : Expr} {value : Value}
    {exit : Exit} {state after last : EvalState}
    (hvalue : evaluate fuel expr state = (.ok value, after))
    (hfails : evaluate (fuel + 1) (.destructure names expr) state = (.error exit, last)) :
    ((∀ items heap, Builtin.itemsOf value after.world.heap = .ok (items, heap) →
        items.length ≠ names.length) ∧ last.scope = after.scope) ∨
      ∃ items heap done refused later,
        Builtin.itemsOf value after.world.heap = .ok (items, heap) ∧
        items.length = names.length ∧ names = done ++ refused :: later ∧
        (∀ name ∈ done, ¬after.scope.Protects name) ∧ after.scope.Protects refused ∧
        (∀ name, last.scope.get? name =
          ((done.zip items).reverse.lookup name).or (after.scope.get? name)) ∧
        ∀ name, last.scope.isConstant name = after.scope.isConstant name := by
  change destructure (evaluate fuel) names expr state = _ at hfails
  cases hitems : Builtin.itemsOf value after.world.heap with
  | error failure =>
      have hperform := perform_scope (Builtin.itemsOf value) after
      unfold destructure at hfails
      rw [run_bind, hvalue] at hfails
      dsimp only at hfails
      rw [run_bind] at hfails
      unfold perform at hfails hperform
      rw [hitems] at hfails hperform
      refine .inl ⟨nofun, ?_⟩
      cases failure <;> cases hfails <;> exact hperform
  | ok result =>
      obtain ⟨items, heap⟩ := result
      obtain ⟨hunfit, hfit⟩ := destructure_run names hvalue hitems
      by_cases hcount : items.length = names.length
      · -- There is an item for each name, so it is a name that has been refused.
        rw [hfit hcount, run_bind] at hfails
        rcases hrun : bindAll (names.zip items) (after.withHeap heap) with ⟨exit | _, bound⟩
        · rw [hrun] at hfails
          cases hfails
          obtain hbound | ⟨done, refused, later, hpairs, hdone, hrefused, hscope⟩ :=
            bind_all_stops (names.zip items) (after.withHeap heap)
          · rw [hrun] at hbound
            cases hbound
          · rw [hrun] at hscope
            obtain ⟨hnames, hzip⟩ := zip_of_append_eq_zip hcount hpairs
            refine .inr ⟨items, heap, done.map (·.1), refused.1, later.map (·.1), rfl, hcount,
              hnames, ?_, hrefused, fun name => ?_, fun name => ?_⟩
            · exact List.forall_mem_map.mpr hdone
            · rw [hzip, hscope]
              exact Scope.get?_bindAll _ _ _
            · rw [hscope]
              exact Scope.isConstant_bindAll _ _ _
        · rw [hrun] at hfails
          cases hfails
      · obtain ⟨message, hraise⟩ := hunfit hcount
        refine .inl ⟨fun items' heap' hsame => ?_, ?_⟩
        · cases hsame
          exact hcount
        · rw [hraise] at hfails
          cases hfails
          rfl

/-- The second of three names is constant. -/
theorem destructure_stops_at_constant :
    let state := (evaluate 5 (.constBind "b" (.int 0)) ⟨.empty, .initial 10 (.ofInput "")⟩).2
    let items : List Value := [.int 1, .int 2, .int 3]
    let run := evaluate 5 (.destructure ["a", "b", "c"] (.tuple [.int 1, .int 2, .int 3])) state
    run.1 = .error (.thrown 0) ∧
      ∃ done refused later, ["a", "b", "c"] = done ++ refused :: later ∧
        (∀ name ∈ done, ¬state.scope.Protects name) ∧ state.scope.Protects refused ∧
        ∀ name, run.2.scope.get? name =
          ((done.zip items).reverse.lookup name).or (state.scope.get? name) := by
  intro state items run
  have hvalue : evaluate 4 (.tuple [.int 1, .int 2, .int 3]) state =
      (.ok (.tuple 1 items), (evaluate 4 (.tuple [.int 1, .int 2, .int 3]) state).2) := rfl
  have hfails : run = (.error (.thrown 0), run.2) := rfl
  obtain ⟨hunfit, -⟩ | ⟨found, heap, done, refused, later, hitems, -, hnames, hdone, hrefused,
    hscope, -⟩ := destructure_stops hvalue hfails
  · exact absurd rfl (hunfit items _ rfl)
  · cases hitems
    exact ⟨rfl, done, refused, later, hnames, hdone, hrefused, hscope⟩

/-- A variable has been bound although the name after it is constant and the assignment fails. -/
theorem destructure_binds_first :
    let state := (evaluate 5 (.block [.letBind "a" (.int 5), .constBind "b" (.int 0)])
      ⟨.empty, .initial 10 (.ofInput "")⟩).2
    let run := evaluate 5 (.destructure ["a", "b"] (.tuple [.int 1, .int 2])) state
    (evaluate 4 (.tuple [.int 1, .int 2]) state).1 = .ok (.tuple 1 [.int 1, .int 2]) ∧
      (evaluate 4 (.tuple [.int 1, .int 2]) state).2.scope.get? "a" = some (.int 5) ∧
      run.1 = .error (.thrown 0) ∧ run.2.scope.get? "a" = some (.int 1) :=
  ⟨rfl, rfl, rfl, rfl⟩

/-! ## Comprehensions -/

/-- Runs an evaluation in a copy of a scope, which is dropped in the end. -/
def inCopy {α : Type} (copy : Scope) (run : Eval α) : Eval α := fun state =>
  ((run { state with scope := copy }).1,
    { (run { state with scope := copy }).2 with scope := state.scope })

/-- The values of an element for each of some items, to which a name is bound in turn. -/
def elements (ev : Evaluator) (element : Expr) (binder : String) (items : List Value) :
    Eval (List Value) :=
  items.mapM fun item => do
    bindName binder item
    ev element

/-- The list of the elements for some items, evaluated in a copy of a scope. -/
def collect (ev : Evaluator) (element : Expr) (binder : String) (items : List Value)
    (copy : Scope) : Eval Value := do
  let found ← inCopy copy (elements ev element binder items)
  perform (Action.newList found.toArray)

/-- The loop that a comprehension stands for, with the copy of the scope taken when the items are
there. -/
def collectAfter (ev : Evaluator) (element : Expr) (binder : String) (iterable : Expr) :
    Eval Value := do
  let items ← sourceItems ev iterable
  collect ev element binder items (← scope)

/-- The elements of a comprehension are collected item by item. -/
theorem comprehension_items_eq (ev : Evaluator) (element : Expr) (binder : String)
    (items done : List Value) :
    comprehensionItems ev element binder items done =
      elements ev element binder items >>= fun found => pure (done.reverse ++ found) := by
  induction items generalizing done with
  | nil => simp [comprehensionItems, elements]
  | cons item items ih => simp [comprehensionItems, elements, ih, List.mapM_cons]

/-- A comprehension collects its elements in a copy of the scope that was there before its items. -/
theorem comprehension_collects (ev : Evaluator) (element : Expr) (binder : String)
    (iterable : Expr) (state : EvalState) :
    comprehension ev element binder iterable state =
      (sourceItems ev iterable >>= fun items =>
        collect ev element binder items state.scope) state := by
  rw [comprehension_run, run_bind]
  rcases sourceItems ev iterable state with ⟨exit | items, middle⟩
  · rfl
  · dsimp only
    unfold collect
    rw [run_bind, comprehension_items_eq]
    simp only [List.reverse_nil, List.nil_append, bind_pure]
    unfold inCopy
    rcases elements ev element binder items { middle with scope := state.scope }
      with ⟨exit | found, left⟩ <;> rfl

/-- Listing the items of an iterable leaves the scope as the iterable does. -/
theorem source_items_scope (ev : Evaluator) (iterable : Expr) (state : EvalState) :
    (sourceItems ev iterable state).2.scope = (ev iterable state).2.scope := by
  unfold sourceItems
  rw [run_bind]
  rcases ev iterable state with ⟨exit | source, after⟩
  · rfl
  · exact perform_scope _ _

/-- Collecting elements leaves the scope alone. -/
theorem collect_scope (ev : Evaluator) (element : Expr) (binder : String) (items : List Value)
    (copy : Scope) (state : EvalState) :
    (collect ev element binder items copy state).2.scope = state.scope := by
  unfold collect inCopy
  rw [run_bind]
  rcases elements ev element binder items { state with scope := copy } with ⟨exit | found, left⟩
  · rfl
  · exact perform_scope _ _

/-- A comprehension evaluates its iterable, and then collects the values of its element for each
item in order, in one copy of the scope; afterwards the scope is as the iterable left it. The copy
is of the scope before the iterable, so the comprehension is the loop with a copy of the scope that
the iterable leaves whenever the iterable leaves the scope as it was. -/
theorem comprehension_unrolled (fuel : Nat) (element : Expr) (binder : String) (iterable : Expr)
    (state : EvalState) :
    let ev := evaluate fuel
    let run := evaluate (fuel + 1) (.comprehension element binder iterable) state
    run = (sourceItems ev iterable >>= fun items =>
        collect ev element binder items state.scope) state ∧
      run.2.scope = (ev iterable state).2.scope ∧
      ((ev iterable state).2.scope = state.scope →
        run = collectAfter ev element binder iterable state) := by
  intro ev run
  have hrun : run = (sourceItems ev iterable >>= fun items =>
      collect ev element binder items state.scope) state :=
    comprehension_collects ev element binder iterable state
  refine ⟨hrun, ?_, fun hscope => ?_⟩
  · rw [hrun, run_bind, ← source_items_scope]
    rcases sourceItems ev iterable state with ⟨exit | items, middle⟩
    · rfl
    · exact collect_scope _ _ _ _ _ _
  · rw [hrun]
    unfold collectAfter
    rw [run_bind, run_bind]
    rw [← source_items_scope] at hscope
    rcases hsource : sourceItems ev iterable state with ⟨exit | items, middle⟩
    · rfl
    · rw [hsource] at hscope
      exact congrArg (collect ev element binder items · middle) hscope.symm

/-- The iterable binds a variable anew, and the element still sees the old value. -/
theorem comprehension_sees_old :
    let start : EvalState := ⟨.empty, .initial 10 (.ofInput "")⟩
    let state := (evaluate 5 (.letBind "z" (.int 1)) start).2
    let iterable : Expr := .block [.assign "z" (.int 2), .list [.int 0]]
    let run := evaluate 5 (.comprehension (.name "z") "x" iterable) state
    let loop := collectAfter (evaluate 4) (.name "z") "x" iterable state
    run.1 = .ok (.list 1) ∧ run.2.world.heap.list 1 = #[.int 1] ∧
      loop.1 = .ok (.list 1) ∧ loop.2.world.heap.list 1 = #[.int 2] :=
  ⟨rfl, rfl, rfl, rfl⟩

end Eval

end Script
