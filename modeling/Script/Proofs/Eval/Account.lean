import Script.Proofs.Eval.Conduct

/-!
# Accounting for what evaluations leave

Most rules can only make objects and raise errors, which never breaks a property of the heap that
depends on lists and errors only. `Eval.Makes` says which applications the rules make that can do
more, each with the heap in which it is made. If all applications that are made in the course of an
evaluation keep a property of the heap and stop only as they may, then so does the evaluation
(`Eval.evaluate_leaves`), and the property holds in all states that the evaluation includes
(`Eval.Includes.kept`). Read the other way, whatever is lost in an evaluation has been lost in one
of these applications.
-/

namespace Script

/-- The application that calling a value makes, if it stands for a built-in operation. The number of
arguments of `input` is checked first. -/
inductive Value.Calls (items : List Value) : Value → Application → Prop where
  | function {callee : BuiltinFunction} (h : callee = .input → items.length ≤ 1) :
      Calls items (.builtin callee) (.function callee items)
  | method (mark : Nat) (object : Value) (name : String) :
      Calls items (.builtinMethod mark object name) (.method object name items)

/-- The value looks up its attributes itself. -/
def Value.HasFields : Value → Prop
  | .object _ | .classObject _ => True
  | _ => False

/-- What a rule is put together from besides the applications. -/
def Ingredients.quiet (ingredients : Ingredients) : Ingredients :=
  { ingredients with applies := False }

theorem Ingredients.quiet_eq {expr : Expr} (h : ¬expr.Applies) :
    expr.ingredients.quiet = expr.ingredients := by
  unfold quiet Expr.ingredients
  simp only [h]

namespace Eval

/-- The applications that the rule of a construct makes, and the heaps in which it makes them. -/
inductive Makes (ev : Evaluator) : Expr → EvalState → Application → Heap → Prop where
  | operator {operator : BinaryOperator} {left right : Expr} {x y : Value}
      {state after : EvalState} (hstrict : ¬(operator = .and ∨ operator = .or))
      (hvalues : values ev [left, right] state = (.ok [x, y], after)) :
      Makes ev (.binary operator left right) state (.operator operator x y) after.world.heap
  | getItem {collection index : Expr} {x y : Value} {state after : EvalState}
      (hvalues : values ev [collection, index] state = (.ok [x, y], after)) :
      Makes ev (.index collection index) state (.getItem x y) after.world.heap
  | setItem {collection index value : Expr} {x y z : Value} {state after : EvalState}
      (hvalues : values ev [collection, index, value] state = (.ok [x, y, z], after)) :
      Makes ev (.assignIndex collection index value) state (.setItem x y z) after.world.heap
  | call {callee : Expr} {items : List Expr} {target : Value} {arguments : List Value}
      {application : Application} {state after : EvalState}
      (hname : ∀ name, callee = .name name → state.world.functions.get? name = none)
      (hvalues : values ev (callee :: items) state = (.ok (target :: arguments), after))
      (hcalls : target.Calls arguments application) :
      Makes ev (.call callee items) state application after.world.heap
  | method {object : Expr} {name : String} {items : List Expr} {receiver : Value}
      {arguments : List Value} {state after : EvalState}
      (hvalues : values ev (object :: items) state = (.ok (receiver :: arguments), after))
      (hreceiver : ¬receiver.HasFields) :
      Makes ev (.methodCall object name items) state (.method receiver name arguments)
        after.world.heap
  | ownMethod {object : Expr} {name : String} {items : List Expr} {receiver target : Value}
      {arguments : List Value} {application : Application} {state middle after : EvalState}
      (hvalues : values ev (object :: items) state = (.ok (receiver :: arguments), middle))
      (hreceiver : receiver.HasFields)
      (htarget : getAttribute receiver name middle = (.ok target, after))
      (hcalls : target.Calls arguments application) :
      Makes ev (.methodCall object name items) state application after.world.heap
  | cause {value cause : Expr} {error : ErrorId} {linked : Option ErrorId}
      {state middle after : EvalState}
      (hthrown : (ev value >>= fun thrown => perform (Builtin.toError thrown)) state =
        (.ok error, middle))
      (hcause : (ev cause >>= fun value => perform (Builtin.toCause value)) middle =
        (.ok linked, after)) :
      Makes ev (.throwError value (some cause)) state (.cause error linked) after.world.heap
  | context {exprs handler : List Expr} {binder : Option String} {inner caught : ErrorId}
      {state after : EvalState} (hlinks : Links ev exprs binder handler state inner caught after) :
      Makes ev (.tryCatch exprs binder handler) state (.context inner caught) after.world.heap

variable {α β : Type} {ev other : Evaluator} {state middle after : EvalState}

theorem run_bind_ok {part : Eval α} {next : α → Eval β} {result : α} {final : β}
    (hpart : part state = (.ok result, middle)) (hnext : next result middle = (.ok final, after)) :
    (part >>= next) state = (.ok final, after) := by
  rw [run_bind, hpart]
  exact hnext

/-- The values of a row begin with the value of its first expression. -/
theorem values_cons {expr : Expr} {exprs : List Expr} {value : Value} {rest : List Value}
    (hvalue : ev expr state = (.ok value, middle))
    (hrest : values ev exprs middle = (.ok rest, after)) :
    values ev (expr :: exprs) state = (.ok (value :: rest), after) := by
  exact run_bind_ok hvalue (run_bind_ok hrest rfl)

theorem values_nil : values ev [] state = (.ok [], state) :=
  rfl

/-- Only an application can break the property of the heap, and only a fault that is not that of a
stream is no exit. -/
structure Watched (keeps : Heap → Prop) (exits : Exit → Prop) : Prop where
  congr {heap other : Heap} :
    keeps heap → other.lists = heap.lists → other.errors = heap.errors → keeps other
  changes {heap after : Heap} : heap.Changes .none after → keeps heap → keeps after
  fault {fault : Fault} : fault.hasError = true → exits (.fault fault)
  stream (fault : StreamFault) : exits (.fault (.stream fault))
  exits {exit : Exit} : (∀ fault, exit ≠ .fault fault) → exits exit

variable {depth : Nat} {keeps : Heap → Prop} {exits : Exit → Prop}

namespace Watched

variable (hwatched : Watched keeps exits)
include hwatched

theorem kept : Heap.Kept keeps where
  congr hheap hlists herrors _ := hwatched.congr hheap hlists herrors
  changes := hwatched.changes

theorem usual : Exit.Usual exits where
  thrown _ := hwatched.exits nofun
  fault := hwatched.fault
  stream := hwatched.stream
  outOfFuel := hwatched.exits nofun

/-- The setting of all that a rule does besides making applications. -/
theorem setting (hev : ∀ depth part, Conforms depth keeps exits (ev part) (other part))
    (depth : Nat) (expr : Expr) : Setting depth keeps exits expr.ingredients.quiet ev other where
  kept := hwatched.kept
  usual := hwatched.usual
  parts part _ := hev depth part
  loopBody part _ := (hev depth part).mono fun _ => .inl
  functionBodies _ _ _ hheap := hwatched.congr hheap rfl rfl
  calls _ _ _ part _ := (hev (depth + 1) part).mono fun _ => .inl
  ownExits exit hexit := by
    refine hwatched.exits fun fault hfault => ?_
    subst hfault
    cases expr with
    | «throwError» value cause =>
        obtain ⟨error, heq⟩ := hexit
        cases heq
    | returnValue value =>
        obtain ⟨result, heq⟩ := hexit
        cases heq
    | breakLoop | continueLoop | whileLoop => cases hexit
    | _ => exact hexit.elim
  applies := False.elim

end Watched

/-! ## What one rule leaves -/

/-- An operation that gives a result changes the heap at most. -/
theorem perform_ok {action : Action α} {result : α}
    (h : perform action state = (.ok result, after)) :
    ∃ heap, action state.world.heap = .ok (result, heap) ∧ after = state.withHeap heap := by
  unfold perform at h
  split at h
  · rename_i heap hrun
    cases h
    exact ⟨heap, hrun, rfl⟩
  · cases h
  · cases h

section Rule

variable (hwatched : Watched keeps exits)
  (hev : ∀ depth part, Conforms depth keeps exits (ev part) (other part))
include hwatched hev

theorem quiet_leaves_same (expr : Expr) {rule : Evaluator → Eval α}
    (h : Composed expr.ingredients.quiet rule) (hdepth : state.world.depth = depth)
    (hheap : keeps state.world.heap) :
    LeavesSame depth keeps exits (rule ev state) (rule other state) :=
  h.conforms (hwatched.setting hev depth expr) state hdepth hheap

omit hev in
theorem apply_leaves_same {action : Action α} {application : Application}
    (heffect : action.effect = application.effect) (hdepth : state.world.depth = depth)
    (hheap : keeps state.world.heap)
    (hfits : Application.Fits keeps exits state.world.heap application) :
    LeavesSame depth keeps exits (perform action state) (perform action state) :=
  ⟨rfl, .apply hwatched.kept hwatched.usual heffect hdepth hheap hfits⟩

/-- Calling a value leaves what it may, if the application that it makes does. -/
theorem call_value_leaves_same {expr : Expr} (hreads : expr.Reads)
    (hfunctions : expr.CallsFunctions) {callee : Value} {items : List Value}
    (hdepth : state.world.depth = depth) (hheap : keeps state.world.heap)
    (hcalls : ∀ application, callee.Calls items application →
      Application.Fits keeps exits state.world.heap application) :
    LeavesSame depth keeps exits (callValue ev callee items state)
      (callValue other callee items state) := by
  have hquiet {rule : Evaluator → Eval Value} (h : Composed expr.ingredients.quiet rule)
      {state : EvalState} (hdepth : state.world.depth = depth) (hheap : keeps state.world.heap) :
      LeavesSame depth keeps exits (rule ev state) (rule other state) :=
    quiet_leaves_same hwatched hev expr h hdepth hheap
  cases callee with
  | function id => exact hquiet (.call id items none hfunctions) hdepth hheap
  | boundMethod mark receiver id =>
      exact hquiet (.call id items (some receiver) hfunctions) hdepth hheap
  | classObject id => exact hquiet (composed_instantiate hfunctions id items) hdepth hheap
  | builtinMethod mark object name =>
      exact apply_leaves_same hwatched rfl hdepth hheap (hcalls _ (.method mark object name))
  | builtin callee =>
      cases callee with
      | print =>
          have hfits := hcalls (.function .print items) (.function nofun)
          refine (apply_leaves_same hwatched rfl hdepth hheap hfits).bind
            fun texts after _ hdepth hheap => ?_
          exact hquiet (.bind (.write _) fun _ => .pure _) hdepth hheap
      | input =>
          have hcheck : Composed expr.ingredients.quiet fun _ =>
              perform (Builtin.checkCount "input" items.length 0 1) :=
            .perform (Builtin.within_check_count _ _ _ _)
          refine (quiet_leaves_same hwatched hev expr hcheck hdepth hheap).bind
            fun _ checked hrun hdepth hheap => ?_
          obtain ⟨heap, hcheck, rfl⟩ := perform_ok hrun
          obtain ⟨hcount, rfl⟩ := Builtin.check_count_ok hcheck
          cases items with
          | nil => exact hquiet (composed_answer hreads) hdepth hheap
          | cons prompt items =>
              have hfits := hcalls _ (.function fun _ => hcount)
              refine (apply_leaves_same hwatched rfl hdepth hheap hfits).bind
                fun text shown _ hdepth hheap => ?_
              exact hquiet (.bind (.write text) fun _ => composed_answer hreads) hdepth hheap
      | _ => exact apply_leaves_same hwatched rfl hdepth hheap (hcalls _ (.function nofun))
  | _ => exact hquiet (.bind .heap fun heap => .raise _ _) hdepth hheap

theorem binary_leaves_same {operator : BinaryOperator} {left right : Expr}
    (hdepth : state.world.depth = depth) (hheap : keeps state.world.heap)
    (hmakes : ∀ application heap, Makes ev (.binary operator left right) state application heap →
      keeps heap → Application.Fits keeps exits heap application) :
    LeavesSame depth keeps exits (binary ev operator left right state)
      (binary other operator left right state) := by
  by_cases hlazy : operator = .and ∨ operator = .or
  · exact quiet_leaves_same hwatched hev (.binary operator left right)
      (composed_lazy hlazy List.mem_cons_self mem_second) hdepth hheap
  · have hstrict (ev : Evaluator) : binary ev operator left right =
        ev left >>= fun x => ev right >>= fun y => perform (operator.apply x y) := by
      cases operator with
      | and | or => simp at hlazy
      | _ => rfl
    rw [hstrict, hstrict]
    refine (hev depth left state hdepth hheap).bind fun x first hx hdepth hheap => ?_
    refine (hev depth right first hdepth hheap).bind fun y second hy hdepth hheap => ?_
    exact apply_leaves_same hwatched rfl hdepth hheap
      (hmakes _ _ (.operator hlazy (values_cons hx (values_cons hy values_nil))) hheap)

theorem index_leaves_same {collection index : Expr} {fuel : Nat}
    (hdepth : state.world.depth = depth) (hheap : keeps state.world.heap)
    (hmakes : ∀ application heap, Makes ev (.index collection index) state application heap →
      keeps heap → Application.Fits keeps exits heap application) :
    LeavesSame depth keeps exits (step ev fuel (.index collection index) state)
      (step other fuel (.index collection index) state) := by
  refine (hev depth collection state hdepth hheap).bind fun x first hx hdepth hheap => ?_
  refine (hev depth index first hdepth hheap).bind fun y second hy hdepth hheap => ?_
  exact apply_leaves_same hwatched rfl hdepth hheap
    (hmakes _ _ (.getItem (values_cons hx (values_cons hy values_nil))) hheap)

theorem assign_index_leaves_same {collection index value : Expr}
    (hdepth : state.world.depth = depth) (hheap : keeps state.world.heap)
    (hmakes : ∀ application heap,
      Makes ev (.assignIndex collection index value) state application heap → keeps heap →
        Application.Fits keeps exits heap application) :
    LeavesSame depth keeps exits (assignIndex ev collection index value state)
      (assignIndex other collection index value state) := by
  refine (hev depth collection state hdepth hheap).bind fun x first hx hdepth hheap => ?_
  refine (hev depth index first hdepth hheap).bind fun y second hy hdepth hheap => ?_
  refine (hev depth value second hdepth hheap).bind fun z third hz hdepth hheap => ?_
  have hvalues := values_cons hx (values_cons hy (values_cons hz values_nil))
  refine (apply_leaves_same hwatched rfl hdepth hheap (hmakes _ _ (.setItem hvalues) hheap)).bind ?_
  exact fun _ _ _ hdepth hheap => ⟨rfl, .of_ok hdepth hheap⟩

theorem call_leaves_same {callee : Expr} {items : List Expr} (hdepth : state.world.depth = depth)
    (hheap : keeps state.world.heap)
    (hmakes : ∀ application heap, Makes ev (.call callee items) state application heap →
      keeps heap → Application.Fits keeps exits heap application) :
    LeavesSame depth keeps exits (call ev callee items state) (call other callee items state) := by
  have hvalues : Composed (Expr.call callee items).ingredients.quiet fun ev => values ev items :=
    composed_values fun _ => List.mem_cons_of_mem _
  have hvalue (hname : ∀ name, callee = .name name → state.world.functions.get? name = none) :
      LeavesSame depth keeps exits
        ((ev callee >>= fun target => values ev items >>= callValue ev target) state)
        ((other callee >>= fun target => values other items >>= callValue other target) state) := by
    refine (hev depth callee state hdepth hheap).bind fun target first hx hdepth hheap => ?_
    refine (quiet_leaves_same hwatched hev _ hvalues hdepth hheap).bind
      fun arguments after hxs hdepth hheap => ?_
    have hreads : (Expr.call callee items).Reads := trivial
    refine call_value_leaves_same hwatched hev hreads trivial hdepth hheap ?_
    exact fun application hcalls => hmakes _ _ (.call hname (values_cons hx hxs) hcalls) hheap
  by_cases hdirect : ∃ name id, callee = .name name ∧ state.world.functions.get? name = some id
  · obtain ⟨name, id, rfl, hname⟩ := hdirect
    rw [call_run_function hname, call_run_function hname]
    exact quiet_leaves_same hwatched hev _
      (hvalues.bind fun arguments => .call id arguments none trivial) hdepth hheap
  · have hname (name : String) (hcallee : callee = .name name) :
        state.world.functions.get? name = none :=
      Option.eq_none_iff_forall_ne_some.mpr fun id hid => hdirect ⟨name, id, hcallee, hid⟩
    rw [call_run_value hname, call_run_value hname]
    exact hvalue hname

theorem method_call_leaves_same {object : Expr} {name : String} {items : List Expr}
    (hdepth : state.world.depth = depth) (hheap : keeps state.world.heap)
    (hmakes : ∀ application heap, Makes ev (.methodCall object name items) state application heap →
      keeps heap → Application.Fits keeps exits heap application) :
    LeavesSame depth keeps exits (methodCall ev object name items state)
      (methodCall other object name items state) := by
  have hvalues : Composed (Expr.methodCall object name items).ingredients.quiet
      fun ev => values ev items :=
    composed_values fun _ => List.mem_cons_of_mem _
  refine (hev depth object state hdepth hheap).bind fun receiver first hx hdepth hheap => ?_
  refine (quiet_leaves_same hwatched hev _ hvalues hdepth hheap).bind
    fun arguments middle hxs hdepth hheap => ?_
  have hvalues := values_cons hx hxs
  have hattribute (hreceiver : receiver.HasFields) :
      LeavesSame depth keeps exits
        ((getAttribute receiver name >>= fun target => callValue ev target arguments) middle)
        ((getAttribute receiver name >>= fun target => callValue other target arguments)
          middle) := by
    refine (quiet_leaves_same hwatched hev (.methodCall object name items)
      (composed_get_attribute receiver name) hdepth hheap).bind
      fun target after htarget hdepth hheap => ?_
    have hreads : (Expr.methodCall object name items).Reads := trivial
    refine call_value_leaves_same hwatched hev hreads trivial hdepth hheap ?_
    exact fun application hcalls =>
      hmakes _ _ (.ownMethod hvalues hreceiver htarget hcalls) hheap
  cases receiver with
  | object | classObject => exact hattribute trivial
  | _ =>
      exact apply_leaves_same hwatched rfl hdepth hheap (hmakes _ _ (.method hvalues id) hheap)

theorem throw_value_leaves_same {value : Expr} {cause : Option Expr}
    (hdepth : state.world.depth = depth) (hheap : keeps state.world.heap)
    (hmakes : ∀ application heap, Makes ev (.throwError value cause) state application heap →
      keeps heap → Application.Fits keeps exits heap application) :
    LeavesSame depth keeps exits (throwValue ev value cause state)
      (throwValue other value cause state) := by
  have hquiet {α : Type} {action : Action α} (h : action.Within .none) :
      Conforms depth keeps exits (perform action) (perform action) :=
    .of_leaves fun _ => .quiet hwatched.kept hwatched.usual h
  have hthrow (error : ErrorId) : Conforms depth keeps exits
      (throw (.thrown error) : Eval Value) (throw (.thrown error)) :=
    .of_leaves fun _ hdepth hheap => .of_error hdepth hheap (hwatched.usual.thrown error)
  refine (hev depth value state hdepth hheap).bind fun thrown first hx hdepth hheap => ?_
  refine (hquiet (Builtin.within_to_error thrown) first hdepth hheap).bind
    fun error middle herror hdepth hheap => ?_
  cases cause with
  | none => exact hthrow error middle hdepth hheap
  | some cause =>
      refine (hev depth cause middle hdepth hheap).bind fun value second hy hdepth hheap => ?_
      refine (hquiet (Builtin.within_to_cause value) second hdepth hheap).bind
        fun linked after hlinked hdepth hheap => ?_
      have hfits := hmakes _ _ (.cause (run_bind_ok hx herror) (run_bind_ok hy hlinked)) hheap
      refine (apply_leaves_same hwatched rfl hdepth hheap hfits).bind ?_
      exact fun _ last _ => hthrow error last

/-- A rule leaves what it may, if the applications that it makes do. -/
theorem step_leaves_same {expr : Expr} (fuel : Nat) (hdepth : state.world.depth = depth)
    (hheap : keeps state.world.heap)
    (hmakes : ∀ application heap, Makes ev expr state application heap → keeps heap →
      Application.Fits keeps exits heap application) :
    LeavesSame depth keeps exits (step ev fuel expr state) (step other fuel expr state) := by
  by_cases happlies : expr.Applies
  · cases expr with
    | binary => exact binary_leaves_same hwatched hev hdepth hheap hmakes
    | index => exact index_leaves_same hwatched hev hdepth hheap hmakes
    | assignIndex => exact assign_index_leaves_same hwatched hev hdepth hheap hmakes
    | call => exact call_leaves_same hwatched hev hdepth hheap hmakes
    | methodCall => exact method_call_leaves_same hwatched hev hdepth hheap hmakes
    | «throwError» => exact throw_value_leaves_same hwatched hev hdepth hheap hmakes
    | _ => exact happlies.elim
  · have hsetting := hwatched.setting hev depth expr
    rw [Ingredients.quiet_eq happlies] at hsetting
    by_cases hexpr : HandlesErrors expr
    · cases expr with
      | tryCatch exprs binder handler =>
          exact try_catch_leaves_same binder hsetting hdepth hheap
            fun inner caught after hlinks => hmakes _ _ (.context hlinks)
      | _ => exact hexpr.elim
    · exact (composed_step hexpr fuel).conforms hsetting state hdepth hheap

end Rule

/-! ## Stops -/

section Stops

variable {questions : Expr → EvalState → Prop} {mark : Heap}

/-- A run that has not ended at a stop has ended as it does without stops. -/
theorem Stoppable.of_stopped {run : Evaluator → Except Exit α × EvalState}
    {outcome : Except Exit α × EvalState} (h : Stoppable ev mark run)
    (hrun : run (stopped ev questions mark) = outcome) (hexit : outcome.1 ≠ .error .outOfFuel) :
    run ev = outcome := by
  obtain heq | ⟨hat, -⟩ := h questions
  · exact heq.symm.trans hrun
  · exact (hexit (hrun ▸ hat.exit)).elim

theorem values_of_stopped {exprs : List Expr} {items : List Value}
    (h : values (stopped ev questions mark) exprs state = (.ok items, after)) :
    values ev exprs state = (.ok items, after) := by
  have hvalues : Composed (Expr.list exprs).ingredients fun ev => values ev exprs :=
    composed_values fun _ hmem => hmem
  have hstoppable : Stoppable ev mark fun ev => values ev exprs state := hvalues.stoppable state
  exact hstoppable.of_stopped h nofun

theorem operation_of_stopped {part : Expr} {next : Value → Action α} {result : α}
    (h : (stopped ev questions mark part >>= fun value => perform (next value)) state =
      (.ok result, after)) :
    (ev part >>= fun value => perform (next value)) state = (.ok result, after) := by
  have hstoppable : Stoppable ev mark fun ev =>
      (ev part >>= fun value => perform (next value)) state :=
    .bind (.ask part state) fun value middle => .const (perform (next value) middle)
  exact hstoppable.of_stopped h nofun

theorem Links.of_stopped {exprs handler : List Expr} {binder : Option String}
    {inner caught : ErrorId}
    (h : Links (stopped ev questions mark) exprs binder handler state inner caught after) :
    Links ev exprs binder handler state inner caught after := by
  obtain ⟨hcatches, hthrows, hother, hunlinked⟩ := h
  have hbody : Stoppable ev mark fun ev => body ev exprs state := .body exprs state
  have hhandler := (run_handler_stoppable caught binder handler _).of_stopped hthrows nofun
  refine ⟨?_, hhandler, hother, hunlinked⟩
  cases hcatches with
  | thrown hrun => exact .thrown (hbody.of_stopped hrun nofun)
  | recursion hrun hnew => exact .recursion (hbody.of_stopped hrun nofun) hnew

/-- With stops, no other applications are made than without. -/
theorem Makes.of_stopped {expr : Expr} {application : Application} {heap : Heap}
    (h : Makes (stopped ev questions mark) expr state application heap) :
    Makes ev expr state application heap := by
  cases h with
  | operator hstrict hvalues => exact .operator hstrict (values_of_stopped hvalues)
  | getItem hvalues => exact .getItem (values_of_stopped hvalues)
  | setItem hvalues => exact .setItem (values_of_stopped hvalues)
  | call hname hvalues hcalls => exact .call hname (values_of_stopped hvalues) hcalls
  | method hvalues hreceiver => exact .method (values_of_stopped hvalues) hreceiver
  | ownMethod hvalues hreceiver htarget hcalls =>
      exact .ownMethod (values_of_stopped hvalues) hreceiver htarget hcalls
  | cause hthrown hcause =>
      exact .cause (operation_of_stopped hthrown) (operation_of_stopped hcause)
  | context hlinks => exact .context hlinks.of_stopped

end Stops

/-! ## What whole evaluations leave -/

/-- The application is made in the course of an evaluation, in some heap. -/
inductive Applied (fuel : Nat) (expr : Expr) (state : EvalState) (application : Application)
    (heap : Heap) : Prop where
  | intro {rest : Nat} {last : Expr} {final : EvalState}
      (hincludes : Includes fuel expr state (rest + 1) last final)
      (hmakes : Makes (evaluate rest) last final application heap)

/-- All applications that are made in the course of an evaluation keep the property, if it holds
before, and stop only as they may. -/
def AllFit (keeps : Heap → Prop) (exits : Exit → Prop) (fuel : Nat) (expr : Expr)
    (state : EvalState) : Prop :=
  ∀ application heap, Applied fuel expr state application heap → keeps heap →
    Application.Fits keeps exits heap application

variable {fuel : Nat} {expr part : Expr} {inner : EvalState}

theorem Applied.here {application : Application} {heap : Heap}
    (h : Makes (evaluate fuel) expr state application heap) :
    Applied (fuel + 1) expr state application heap :=
  ⟨.here _ expr state, h⟩

theorem Applied.inside {application : Application} {heap : Heap}
    (hconsults : Consults fuel expr state part inner)
    (h : Applied fuel part inner application heap) :
    Applied (fuel + 1) expr state application heap := by
  obtain ⟨hincludes, hmakes⟩ := h
  exact ⟨.inside hconsults hincludes, hmakes⟩

theorem AllFit.inside (h : AllFit keeps exits (fuel + 1) expr state)
    (hconsults : Consults fuel expr state part inner) : AllFit keeps exits fuel part inner :=
  fun application heap happlied => h application heap (Applied.inside hconsults happlied)

/-- The questions at which an evaluation is stopped: those with the property that it would not
answer as it should. -/
def Unruly (keeps : Heap → Prop) (exits : Exit → Prop) (ev : Evaluator) (part : Expr)
    (inner : EvalState) : Prop :=
  keeps inner.world.heap ∧ ¬Leaves inner.world.depth keeps exits (ev part inner)

/-- Stopped in time, every evaluation conforms. -/
theorem conforms_stopped (hwatched : Watched keeps exits) {mark : Heap} (hmark : keeps mark)
    (depth : Nat) (part : Expr) :
    Conforms depth keeps exits (stopped ev (Unruly keeps exits ev) mark part)
      (stopped ev (Unruly keeps exits ev) mark part) := by
  refine .of_leaves fun state hdepth hheap => ?_
  unfold stopped
  split
  · exact .of_error hdepth hmark hwatched.usual.outOfFuel
  · rename_i hruly
    subst hdepth
    exact not_not.mp fun hleaves => hruly ⟨hheap, hleaves⟩

/-- A heap with the property that is told apart from the heap that a rule leaves. -/
def markedHeap (fuel : Nat) (expr : Expr) (state : EvalState) : Heap :=
  { state.world.heap with
    nextMark := (step (evaluate fuel) fuel expr state).2.world.heap.nextMark + 1 }

theorem marked_heap_ne : markedHeap fuel expr state ≠
    (step (evaluate fuel) fuel expr state).2.world.heap :=
  fun h => Nat.succ_ne_self _ (congrArg Heap.nextMark h)

/-- If all parts that a rule consults leave what they may, no stops are needed. -/
theorem step_stopped
    (hparts : ∀ part inner, Consults fuel expr state part inner → keeps inner.world.heap →
      Leaves inner.world.depth keeps exits (evaluate fuel part inner)) :
    step (stopped (evaluate fuel) (Unruly keeps exits (evaluate fuel)) (markedHeap fuel expr state))
      fuel expr state = step (evaluate fuel) fuel expr state := by
  by_contra hdiffers
  obtain ⟨part, inner, hunruly, hconsults⟩ := exists_consulted marked_heap_ne hdiffers
  exact hunruly.2 (hparts part inner hconsults hunruly.1)

section Evaluation

variable (hwatched : Watched keeps exits)
include hwatched

/-- An evaluation leaves what it may, if all applications that are made in its course do. -/
theorem evaluate_leaves (hheap : keeps state.world.heap)
    (hfit : AllFit keeps exits fuel expr state) :
    Leaves state.world.depth keeps exits (evaluate fuel expr state) := by
  induction fuel generalizing expr state with
  | zero => exact .of_error rfl hheap hwatched.usual.outOfFuel
  | succ fuel ih =>
      have hmark : keeps (markedHeap fuel expr state) := hwatched.congr hheap rfl rfl
      have hstep := step_leaves_same hwatched (conforms_stopped hwatched hmark) fuel rfl hheap
        fun application heap hmakes => hfit application heap (.here hmakes.of_stopped)
      rw [step_stopped fun part inner hconsults hinner =>
        ih hinner (hfit.inside hconsults)] at hstep
      exact hstep.leaves

/-- In an evaluation whose applications fit, parts are evaluated only where the property holds. -/
theorem Consults.kept (h : Consults fuel expr state part inner) (hheap : keeps state.world.heap)
    (hfit : AllFit keeps exits (fuel + 1) expr state) : keeps inner.world.heap := by
  -- An evaluation that differs only where the property does not hold comes to the same.
  by_contra hlost
  obtain ⟨other, hother, hdiffers⟩ := h
  let questions := Unruly keeps exits (evaluate fuel)
  let mark := markedHeap fuel expr state
  have hmark : keeps mark := hwatched.congr hheap rfl rfl
  have hconforms (depth : Nat) (asked : Expr) : Conforms depth keeps exits
      (stopped (evaluate fuel) questions mark asked) (stopped other questions mark asked) := by
    intro current hdepth hcurrent
    have hsame : other asked current = evaluate fuel asked current :=
      hother asked current (.inr fun heq => hlost (heq ▸ hcurrent))
    refine ⟨?_, (conforms_stopped hwatched hmark depth asked current hdepth hcurrent).leaves⟩
    unfold stopped
    rw [hsame]
  have hstep := step_leaves_same hwatched hconforms fuel rfl hheap
    fun application heap hmakes => hfit application heap (.here hmakes.of_stopped)
  have hunstopped : step (stopped (evaluate fuel) questions mark) fuel expr state =
      step (evaluate fuel) fuel expr state :=
    step_stopped fun part inner hconsults hinner =>
      evaluate_leaves hwatched hinner (hfit.inside hconsults)
  have hsame := hstep.eq.symm.trans hunstopped
  have hstoppable : Stoppable other mark fun ev => step ev fuel expr state :=
    step_stoppable fuel expr state
  obtain heq | ⟨hat, -⟩ := hstoppable questions
  · exact hdiffers (heq.symm.trans hsame)
  · exact marked_heap_ne (hat.heap.symm.trans (congrArg (·.2.world.heap) hsame))

/-- The property holds in all states that an evaluation whose applications fit includes. -/
theorem Includes.kept {rest : Nat} {last : Expr} {final : EvalState}
    (h : Includes fuel expr state rest last final) (hheap : keeps state.world.heap)
    (hfit : AllFit keeps exits fuel expr state) : keeps final.world.heap := by
  induction h with
  | here => exact hheap
  | inside hconsults _ ih =>
      exact ih (hconsults.kept hwatched hheap hfit) (hfit.inside hconsults)

end Evaluation

end Eval

end Script
