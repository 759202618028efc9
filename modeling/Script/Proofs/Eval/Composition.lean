import Script.Proofs.Builtin.Application
import Script.Proofs.Eval.Course
import Script.Proofs.Expr.Parts

/-!
# What the rules of the evaluator are put together from

A rule is given the evaluation of the parts as a parameter. `Eval.Composed` says how it may use it:
it asks for parts of the construct, runs the body of a loop or of a function, and does other things
in between, each of which is listed. A rule may look at the state, but it learns of the console only
by reading a line and by what fails. `Eval.composed_step` says that every construct but the handling
of errors is put together in this way, from the ingredients that `Expr.ingredients` gives for it.
What is to be shown of all rules has then only to be shown for each way of putting them together.
-/

namespace Script

/-- What a rule is put together from. -/
structure Ingredients where
  /-- The expressions that are evaluated, bodies of loops and functions apart. -/
  parts : List Expr
  /-- The body of the loop that is run. -/
  loopBody : List Expr
  /-- The bodies of the functions that are defined. -/
  functionBodies : List (List Expr)
  /-- The exits that the rule takes itself. -/
  exits : Exit → Prop
  /-- Applications are made. -/
  applies : Prop
  /-- Lines are read. -/
  reads : Prop
  /-- Functions are called. -/
  calls : Prop

/-- The exits that a construct takes itself. -/
def Expr.exits : Expr → Exit → Prop
  | .breakLoop, exit => exit = .jump .breaking
  | .continueLoop, exit => exit = .jump .continuing
  | .returnValue _, exit => ∃ value, exit = .jump (.returning value)
  | .throwError _ _, exit => ∃ error, exit = .thrown error
  | .whileLoop _ _, exit => exit = .outOfFuel
  | _, _ => False

/-- The construct applies built-in operations that can do more than make objects and raise
errors. -/
def Expr.Applies : Expr → Prop
  | .binary _ _ _ | .call _ _ | .methodCall _ _ _ | .index _ _ | .assignIndex _ _ _
  | .throwError _ _ => True
  | _ => False

/-- The construct can call `input`. -/
def Expr.Reads : Expr → Prop
  | .call _ _ | .methodCall _ _ _ => True
  | _ => False

/-- The construct can call functions. -/
def Expr.CallsFunctions : Expr → Prop
  | .call _ _ | .methodCall _ _ _ | .newObject _ _ => True
  | _ => False

/-- What the rule of a construct is put together from. -/
def Expr.ingredients (expr : Expr) : Ingredients :=
  ⟨expr.directParts, expr.loopBody, expr.functionBodies, expr.exits, expr.Applies, expr.Reads,
    expr.CallsFunctions⟩

namespace Eval

/-- Runs a part, and then another part aside: in the scope that was there before both. -/
def aside {α β : Type} (source : Eval α) (run : α → Eval β) : Eval β := fun state =>
  match source state with
  | (.error exit, middle) => (.error exit, middle)
  | (.ok result, middle) =>
    ((run result { middle with scope := state.scope }).1,
      { (run result { middle with scope := state.scope }).2 with scope := middle.scope })

/-- How a rule is put together from its ingredients. -/
inductive Composed (ingredients : Ingredients) : {α : Type} → (Evaluator → Eval α) → Prop where
  | pure {α : Type} (result : α) : Composed ingredients fun _ => pure result
  | throw {α : Type} {exit : Exit} (h : ingredients.exits exit) :
      Composed ingredients fun _ => (throw exit : Eval α)
  | look {α : Type} {next : EvalState → Evaluator → Eval α}
      (hblind : ∀ state console, next (state.withConsole console) = next state) :
      (∀ state, Composed ingredients (next state)) →
        Composed ingredients fun ev => get >>= fun state => next state ev
  | bind {α β : Type} {first : Evaluator → Eval α} {next : α → Evaluator → Eval β} :
      Composed ingredients first → (∀ result, Composed ingredients (next result)) →
        Composed ingredients fun ev => first ev >>= fun result => next result ev
  | ask {part : Expr} (h : part ∈ ingredients.parts) : Composed ingredients fun ev => ev part
  | perform {α : Type} {action : Action α} (h : action.Within .none) :
      Composed ingredients fun _ => perform action
  | apply {α : Type} {action : Action α} (application : Application)
      (heffect : action.effect = application.effect) (h : ingredients.applies) :
      Composed ingredients fun _ => perform action
  | newInstance (contents : Instance) :
      Composed ingredients fun _ => perform (Action.newInstance contents)
  | setField (id : InstanceId) (name : String) (value : Value) :
      Composed ingredients fun _ => perform (Action.setField id name value)
  | newFunction {definition : FunctionDef} (h : definition.body ∈ ingredients.functionBodies)
      (hparameters : ∀ parameter ∈ definition.parameters, frozenValue? parameter = none) :
      Composed ingredients fun _ => perform (Action.newFunction definition)
  | newClass (definition : ClassDef) :
      Composed ingredients fun _ => perform (Action.newClass definition)
  | bindName (name : String) (value : Value) : Composed ingredients fun _ => bindName name value
  | bindConstant (name : String) (value : Value) :
      Composed ingredients fun _ => bindConstant name value
  | record (event : LogEvent) : Composed ingredients fun _ => record event
  | write (text : String) : Composed ingredients fun _ => write text
  | readLine (h : ingredients.reads) : Composed ingredients fun _ => readLine
  | nameFunction (name : String) (id : FunctionId) :
      Composed ingredients fun _ =>
        modifyWorld fun world => { world with functions := world.functions.insert name id }
  | nameClass (name : String) (id : ClassId) :
      Composed ingredients fun _ =>
        modifyWorld fun world => { world with classes := world.classes.insert name id }
  | call (id : FunctionId) (items : List Value) (receiver : Option InstanceId)
      (h : ingredients.calls) :
      Composed ingredients fun ev => callFunction ev id items receiver
  | round : Composed ingredients fun ev => loopRound ev ingredients.loopBody
  | aside {α β : Type} {source : Evaluator → Eval α} {run : α → Evaluator → Eval β} :
      Composed ingredients source → (∀ result, Composed ingredients (run result)) →
        Composed ingredients fun ev => aside (source ev) fun result => run result ev

variable {ingredients : Ingredients}

namespace Composed

variable {α β : Type}

theorem ite {condition : Prop} [Decidable condition] {yes no : Evaluator → Eval α}
    (hyes : Composed ingredients yes) (hno : Composed ingredients no) :
    Composed ingredients fun ev => if condition then yes ev else no ev := by
  by_cases h : condition
  · simpa only [if_pos h] using hyes
  · simpa only [if_neg h] using hno

theorem raise (kind : ErrorKind) (message : String) :
    Composed ingredients fun _ => (raise kind message : Eval α) :=
  .perform (Action.within_raise kind message)

/-- A check that may raise an error, and what follows it. -/
theorem check {condition : Prop} [Decidable condition] {next : Evaluator → Eval α}
    (kind : ErrorKind) (message : String) (hnext : Composed ingredients next) :
    Composed ingredients fun ev =>
      if condition then (Eval.raise kind message : Eval PUnit) >>= fun _ => next ev
      else next ev :=
  ite (.bind (.raise kind message) fun _ => hnext) hnext

theorem heap : Composed ingredients fun _ => heap :=
  .look (fun _ _ => rfl) fun _ => .pure _

theorem scope : Composed ingredients fun _ => scope :=
  .look (fun _ _ => rfl) fun _ => .pure _

end Composed

/-! ## Names, attributes and definitions -/

theorem composed_lookup (name : String) : Composed ingredients fun _ => lookup name := by
  unfold lookup
  refine .look (fun _ _ => rfl) fun state => ?_
  split
  · exact .pure _
  · exact .raise _ _

theorem composed_lookup_class (name : String) :
    Composed ingredients fun _ => lookupClass name := by
  unfold lookupClass
  refine .look (fun _ _ => rfl) fun state => ?_
  dsimp only
  split
  · exact .raise _ _
  · exact .raise _ _
  · exact .pure _
  · exact .raise _ _

theorem composed_class_attribute (id : ClassId) (name : String) :
    Composed ingredients fun _ => classAttribute id name := by
  unfold classAttribute
  refine .bind .heap fun heap => ?_
  refine .ite (.ite (.pure _) (.raise _ _)) ?_
  split
  · exact .pure _
  · exact .raise _ _

theorem composed_get_attribute (object : Value) (name : String) :
    Composed ingredients fun _ => getAttribute object name := by
  unfold getAttribute
  split
  · unfold instanceAttribute
    refine .bind .heap fun heap => ?_
    dsimp only
    split
    · exact .pure _
    · split
      · exact .perform (Action.within_bind Action.within_new_mark fun _ => Action.within_pure _)
      · exact .raise _ _
  · exact composed_class_attribute _ name
  · exact .perform (Builtin.within_get_attribute _ name)

theorem composed_set_attribute (object : Value) (name : String) (value : Value) :
    Composed ingredients fun _ => setAttribute object name value := by
  unfold setAttribute
  refine .bind .heap fun heap => ?_
  split
  · exact .check _ _ (.setField _ name value)
  · exact .raise _ _

theorem composed_make_function {exprs : List Expr} (h : exprs ∈ ingredients.functionBodies)
    (name : String) (parameters : List String) :
    Composed ingredients fun _ => makeFunction name parameters exprs := by
  unfold makeFunction
  split
  · exact .raise _ _
  · rename_i hnone
    refine .newFunction h fun parameter hparameter => ?_
    simpa using List.find?_eq_none.mp hnone parameter hparameter

theorem composed_add_class (definition : ClassDef) :
    Composed ingredients fun _ => addClass definition :=
  .bind (.newClass definition) fun id => .nameClass definition.name id

theorem composed_define_function {exprs : List Expr} (h : exprs ∈ ingredients.functionBodies)
    (name : String) (parameters : List String) :
    Composed ingredients fun _ => defineFunction name parameters exprs :=
  .bind (composed_make_function h name parameters) fun id =>
    .bind (.nameFunction name id) fun _ => .pure _

theorem composed_define_struct (name : String) (fields : List String) :
    Composed ingredients fun _ => defineStruct name fields :=
  .bind (composed_add_class _) fun _ => .bind (.record _) fun _ => .pure _

theorem composed_define_enum (name : String) (variants : List String) :
    Composed ingredients fun _ => defineEnum name variants :=
  .bind (composed_add_class _) fun _ => .bind (.record _) fun _ => .pure _

theorem composed_enum_variant (enumName variant : String) :
    Composed ingredients fun _ => enumVariant enumName variant := by
  unfold enumVariant
  refine .bind (composed_lookup_class enumName) fun id => ?_
  exact .bind .heap fun heap => .check _ _ (composed_class_attribute id variant)

theorem composed_import_module (target : String) :
    Composed ingredients fun _ => importModule target :=
  .bind (.record _) fun _ =>
    .bind (.perform (Action.within_new_dict _)) fun dict =>
      .bind (.bindName _ dict) fun _ => .pure _

theorem composed_bind_all (pairs : List (String × Value)) :
    Composed ingredients fun _ => bindAll pairs := by
  induction pairs with
  | nil => exact .pure ()
  | cons pair pairs ih => exact .bind (.bindName pair.1 pair.2) fun _ => ih

/-! ## Parts in a row -/

theorem composed_statements {exprs : List Expr} (h : ∀ expr ∈ exprs, expr ∈ ingredients.parts)
    (last : Value) : Composed ingredients fun ev => statements ev exprs last := by
  induction exprs generalizing last with
  | nil => exact .pure last
  | cons expr exprs ih =>
      rw [List.forall_mem_cons] at h
      exact .bind (.ask h.1) fun value => ih h.2 value

theorem composed_body {exprs : List Expr} (h : ∀ expr ∈ exprs, expr ∈ ingredients.parts) :
    Composed ingredients fun ev => body ev exprs :=
  composed_statements h .null

theorem composed_values {exprs : List Expr} (h : ∀ expr ∈ exprs, expr ∈ ingredients.parts) :
    Composed ingredients fun ev => values ev exprs := by
  induction exprs with
  | nil => exact .pure []
  | cons expr exprs ih =>
      rw [List.forall_mem_cons] at h
      exact .bind (.ask h.1) fun value => .bind (ih h.2) fun values => .pure _

theorem composed_condition {expr : Expr} (h : expr ∈ ingredients.parts) :
    Composed ingredients fun ev => condition ev expr :=
  .bind (.ask h) fun value => .perform (Action.within_is_truthy value)

theorem composed_set_items {exprs : List Expr} (h : ∀ expr ∈ exprs, expr ∈ ingredients.parts)
    (keys : List Value) : Composed ingredients fun ev => setItems ev exprs keys := by
  induction exprs generalizing keys with
  | nil => exact .pure keys
  | cons expr exprs ih =>
      rw [List.forall_mem_cons] at h
      exact .bind (.ask h.1) fun key =>
        .bind (.perform (Action.within_ensure_hashable key)) fun _ => ih h.2 _

theorem composed_dict_pairs {pairs : List (Expr × Expr)}
    (h : ∀ pair ∈ pairs, pair.1 ∈ ingredients.parts ∧ pair.2 ∈ ingredients.parts) (dict : Dict) :
    Composed ingredients fun ev => dictPairs ev pairs dict := by
  induction pairs generalizing dict with
  | nil => exact .pure dict
  | cons pair pairs ih =>
      rw [List.forall_mem_cons] at h
      exact .bind (.ask h.1.1) fun key =>
        .bind (.perform (Action.within_ensure_hashable key)) fun _ =>
          .bind (.ask h.1.2) fun value => ih h.2 _

theorem composed_record_fields (definition : ClassDef) {fields : List (String × Expr)}
    (h : ∀ field ∈ fields, field.2 ∈ ingredients.parts) (bound : Table Value) :
    Composed ingredients fun ev => recordFields ev definition fields bound := by
  induction fields generalizing bound with
  | nil => exact .pure bound
  | cons field fields ih =>
      rw [List.forall_mem_cons] at h
      exact .check _ _ (.bind (.ask h.1) fun value => ih h.2 _)

theorem composed_new_record (className : String) {fields : List (String × Expr)}
    (h : ∀ field ∈ fields, field.2 ∈ ingredients.parts) :
    Composed ingredients fun ev => newRecord ev className fields :=
  .bind (composed_lookup_class className) fun _ =>
    .bind .heap fun _ =>
      .check _ _ (.bind (composed_record_fields _ h _) fun _ =>
        .bind (.newInstance _) fun _ => .pure _)

theorem composed_class_members {members : List Expr}
    (hdefaults : ∀ member ∈ members, ∀ value ∈ member.fieldDefault?, value ∈ ingredients.parts)
    (hmethods : ∀ member ∈ members, ∀ exprs ∈ member.functionBody?,
      exprs ∈ ingredients.functionBodies) (definition : ClassDef) :
    Composed ingredients fun ev => classMembers ev members definition := by
  induction members, definition using classMembers.induct with
  | case1 definition => exact .pure definition
  | case2 name parameters exprs rest definition ih =>
      rw [List.forall_mem_cons] at hdefaults hmethods
      exact .bind (composed_make_function (hmethods.1 exprs rfl) name parameters)
        fun method => ih method hdefaults.2 hmethods.2
  | case3 name value rest definition ih | case4 name value rest definition ih
  | case5 name _ value rest definition ih =>
      rw [List.forall_mem_cons] at hdefaults hmethods
      exact .bind (.ask (hdefaults.1 value rfl)) fun default => ih default hdefaults.2 hmethods.2
  | case6 member rest definition hfunction hassign hlet htyped =>
      have heq : (fun ev => classMembers ev (member :: rest) definition) = fun _ =>
          raise .syntaxError "class body may only contain methods and field defaults" :=
        funext fun ev => by rw [classMembers] <;> assumption
      rw [heq]
      exact .raise _ _

theorem composed_define_class (name : String) (bases : List String) {members : List Expr}
    (hdefaults : ∀ member ∈ members, ∀ value ∈ member.fieldDefault?, value ∈ ingredients.parts)
    (hmethods : ∀ member ∈ members, ∀ exprs ∈ member.functionBody?,
      exprs ∈ ingredients.functionBodies) :
    Composed ingredients fun ev => defineClass ev name bases members := by
  have hrest (base : Option (ClassId × String)) : Composed ingredients fun ev => do
      let definition ←
        classMembers ev members ⟨name, .regular, base.map (·.1), .empty, .empty, []⟩
      addClass definition
      record (.classDefined name (base.map (·.2)))
      return Value.null :=
    .bind (composed_class_members hdefaults hmethods _) fun definition =>
      .bind (composed_add_class definition) fun _ => .bind (.record _) fun _ => .pure _
  unfold defineClass
  cases bases with
  | nil => exact .bind (.pure _) hrest
  | cons baseName bases =>
      exact .bind (composed_lookup_class baseName) fun id =>
        .bind .heap fun heap => .check _ _ (.bind (.pure _) hrest)

/-! ## Calls -/

theorem composed_instantiate (hcalls : ingredients.calls) (id : ClassId) (items : List Value) :
    Composed ingredients fun ev => instantiate ev id items := by
  unfold instantiate
  refine .bind .heap fun heap => ?_
  dsimp only
  cases (heap.classDef id).kind with
  | enum => exact .raise _ _
  | struct => exact .check _ _ (.bind (.newInstance _) fun object => .pure _)
  | regular =>
      refine .bind (.newInstance _) fun object => ?_
      cases heap.findMethod? id "__init__" with
      | some method => exact .bind (.call method items (some object) hcalls) fun _ => .pure _
      | none => exact .ite (.pure _) (.raise _ _)

/-- What `input` does after its prompt. -/
theorem composed_answer (hreads : ingredients.reads) :
    Composed ingredients fun _ => do
      let line ← readLine
      if line.isEmpty then raise .eofError "EOF when reading a line"
      return Value.str
        (String.ofList (Text.trimRightBy (fun c => c = '\r' || c = '\n') line)) :=
  .bind (.readLine hreads) fun _ => .check _ _ (.pure _)

theorem composed_call_builtin (h : ingredients.applies) {function : BuiltinFunction}
    (hreads : function = .input → ingredients.reads) (items : List Value) :
    Composed ingredients fun _ => callBuiltin function items := by
  have hcompute
      (heffect : (Builtin.compute function items).effect =
        (Application.function function items).effect) :
      Composed ingredients fun _ => perform (Builtin.compute function items) :=
    .apply _ heffect h
  cases function with
  | print =>
      exact .bind (.apply (.function .print items) rfl h) fun texts =>
        .bind (.write _) fun _ => .pure _
  | input =>
      have hanswer := composed_answer (hreads rfl)
      refine .bind (.perform (Builtin.within_check_count "input" items.length 0 1)) fun _ => ?_
      cases items with
      | nil => exact hanswer
      | cons prompt items =>
          exact .bind (.apply (.function .input (prompt :: items)) rfl h) fun text =>
            .bind (.write text) fun _ => hanswer
  | _ => exact hcompute rfl

theorem composed_call_value (h : ingredients.applies) (hcalls : ingredients.calls)
    {callee : Value} (hreads : callee = .builtin .input → ingredients.reads)
    (items : List Value) :
    Composed ingredients fun ev => callValue ev callee items := by
  cases callee with
  | function id => exact .call id items none hcalls
  | boundMethod mark receiver id => exact .call id items (some receiver) hcalls
  | builtinMethod mark object method => exact .apply (.method object method items) rfl h
  | builtin function =>
      exact composed_call_builtin h (fun hinput => hreads (congrArg Value.builtin hinput)) items
  | classObject id => exact composed_instantiate hcalls id items
  | _ => exact .bind .heap fun heap => .raise _ _

theorem composed_call (h : ingredients.applies) (hreads : ingredients.reads)
    (hcalls : ingredients.calls) {callee : Expr} {items : List Expr}
    (hcallee : callee ∈ ingredients.parts) (hitems : ∀ item ∈ items, item ∈ ingredients.parts) :
    Composed ingredients fun ev => call ev callee items := by
  unfold call
  refine .look (fun _ _ => rfl) fun state => ?_
  dsimp only
  split
  · exact .bind (composed_values hitems) fun arguments => .call _ arguments none hcalls
  · exact .bind (.ask hcallee) fun target =>
      .bind (composed_values hitems) fun arguments =>
        composed_call_value h hcalls (fun _ => hreads) arguments

theorem composed_method_call (h : ingredients.applies) (hreads : ingredients.reads)
    (hcalls : ingredients.calls) {object : Expr} (method : String) {items : List Expr}
    (hobject : object ∈ ingredients.parts)
    (hitems : ∀ item ∈ items, item ∈ ingredients.parts) :
    Composed ingredients fun ev => methodCall ev object method items := by
  refine .bind (.ask hobject) fun receiver => .bind (composed_values hitems) fun arguments => ?_
  have hattribute : Composed ingredients fun ev =>
      getAttribute receiver method >>= fun target => callValue ev target arguments :=
    .bind (composed_get_attribute receiver method) fun target =>
      composed_call_value h hcalls (fun _ => hreads) arguments
  cases receiver with
  | object | classObject => exact hattribute
  | _ => exact .apply (.method _ method arguments) rfl h

/-! ## Branches and loops -/

/-- The operators that may leave out their second operand. -/
theorem composed_lazy {operator : BinaryOperator} (hlazy : operator = .and ∨ operator = .or)
    {left right : Expr} (hleft : left ∈ ingredients.parts) (hright : right ∈ ingredients.parts) :
    Composed ingredients fun ev => binary ev operator left right := by
  have htest (expr : Expr) (hexpr : expr ∈ ingredients.parts) :
      Composed ingredients fun ev => do return Value.bool (← condition ev expr) :=
    .bind (composed_condition hexpr) fun _ => .pure _
  obtain rfl | rfl := hlazy
  · exact .bind (composed_condition hleft) fun holds => .ite (htest right hright) (.pure _)
  · exact .bind (composed_condition hleft) fun holds => .ite (.pure _) (htest right hright)

theorem composed_binary (h : ingredients.applies) (operator : BinaryOperator) {left right : Expr}
    (hleft : left ∈ ingredients.parts) (hright : right ∈ ingredients.parts) :
    Composed ingredients fun ev => binary ev operator left right := by
  cases operator with
  | and => exact composed_lazy (.inl rfl) hleft hright
  | or => exact composed_lazy (.inr rfl) hleft hright
  | _ =>
      exact .bind (.ask hleft) fun leftValue => .bind (.ask hright) fun rightValue =>
        .apply (.operator _ leftValue rightValue) rfl h

theorem composed_if_then {test : Expr} {thenBody : List Expr} {elseBranch : Option Expr}
    (htest : test ∈ ingredients.parts) (hthen : ∀ expr ∈ thenBody, expr ∈ ingredients.parts)
    (helse : ∀ expr ∈ elseBranch, expr ∈ ingredients.parts) :
    Composed ingredients fun ev => ifThen ev test thenBody elseBranch := by
  refine .bind (composed_condition htest) fun holds => .ite (composed_body hthen) ?_
  cases elseBranch with
  | some branch => exact .ask (helse branch rfl)
  | none => exact .pure _

theorem composed_match_arms (subject : Value) {arms : List (Expr × Expr)}
    (h : ∀ arm ∈ arms, arm.1 ∈ ingredients.parts ∧ arm.2 ∈ ingredients.parts) :
    Composed ingredients fun ev => matchArms ev subject arms := by
  induction arms with
  | nil => exact .pure _
  | cons arm arms ih =>
      obtain ⟨pattern, result⟩ := arm
      rw [List.forall_mem_cons] at h
      by_cases hname : pattern = .name "_"
      · subst hname
        exact .ask h.1.2
      · have heq : (fun ev => matchArms ev subject ((pattern, result) :: arms)) = fun ev =>
            (do
              let value ← ev pattern
              if ← perform (Action.equal subject value) then ev result
              else matchArms ev subject arms) :=
          funext fun ev => by rw [matchArms]; exact hname
        rw [heq]
        exact .bind (.ask h.1.1) fun value =>
          .bind (.perform (Action.within_equal subject value)) fun same =>
            .ite (.ask h.1.2) (ih h.2)

theorem composed_while_rounds {test : Expr} (htest : test ∈ ingredients.parts)
    (hexits : ingredients.exits .outOfFuel) (fuel : Nat) (last : Value) :
    Composed ingredients fun ev => whileRounds ev test ingredients.loopBody fuel last := by
  induction fuel generalizing last with
  | zero => exact .throw hexits
  | succ fuel ih =>
      exact .bind (composed_condition htest) fun holds =>
        .ite (.bind .round fun round => .ite (.pure _) (ih _)) (.pure _)

theorem composed_for_rounds (binder : String) (items : List Value) (last : Value) :
    Composed ingredients fun ev => forRounds ev binder ingredients.loopBody items last := by
  induction items generalizing last with
  | nil => exact .pure last
  | cons item items ih =>
      exact .bind (.bindName binder item) fun _ =>
        .bind .round fun round => .ite (.pure _) (ih _)

theorem composed_for_loop (binder : String) {iterable : Expr}
    (h : iterable ∈ ingredients.parts) :
    Composed ingredients fun ev => forLoop ev binder iterable ingredients.loopBody :=
  .bind (.ask h) fun source =>
    .bind (.perform (Builtin.within_items_of source)) fun items =>
      composed_for_rounds binder items .null

theorem composed_comprehension_items {element : Expr} (h : element ∈ ingredients.parts)
    (binder : String) (items done : List Value) :
    Composed ingredients fun ev => comprehensionItems ev element binder items done := by
  induction items generalizing done with
  | nil => exact .pure done.reverse
  | cons item items ih =>
      exact .bind (.bindName binder item) fun _ => .bind (.ask h) fun value => ih _

/-- The items that a comprehension goes through. -/
def sourceItems (ev : Evaluator) (iterable : Expr) : Eval (List Value) := do
  let source ← ev iterable
  perform (Builtin.itemsOf source)

/-- What a comprehension comes to: its elements are evaluated in the scope that was there before
its items. -/
theorem comprehension_run (ev : Evaluator) (element : Expr) (binder : String) (iterable : Expr)
    (state : EvalState) :
    comprehension ev element binder iterable state =
      match sourceItems ev iterable state with
      | (.error exit, middle) => (.error exit, middle)
      | (.ok items, middle) =>
        match
          comprehensionItems ev element binder items [] { middle with scope := state.scope } with
        | (.error exit, left) => (.error exit, { left with scope := middle.scope })
        | (.ok found, left) =>
          perform (Action.newList found.toArray) { left with scope := middle.scope } := by
  unfold comprehension sourceItems
  rw [run_bind]
  show (ev iterable >>= _) state = _
  rw [run_bind, run_bind]
  rcases ev iterable state with ⟨exit | source, after⟩
  · rfl
  · dsimp only
    rw [run_bind]
    rcases perform (Builtin.itemsOf source) after with ⟨exit | items, middle⟩
    · rfl
    · dsimp only
      rw [run_bind]
      show (bind (m := Eval) _ _ : Eval Value) middle = _
      rw [run_bind]
      rcases comprehensionItems ev element binder items [] { middle with scope := state.scope }
        with ⟨exit | found, left⟩ <;> rfl

/-- The elements of a comprehension are evaluated aside. -/
theorem comprehension_eq (ev : Evaluator) (element : Expr) (binder : String) (iterable : Expr) :
    comprehension ev element binder iterable =
      aside (sourceItems ev iterable) (fun items => comprehensionItems ev element binder items [])
        >>= fun found => perform (Action.newList found.toArray) := by
  funext state
  rw [comprehension_run, run_bind]
  unfold aside
  rcases sourceItems ev iterable state with ⟨exit | items, middle⟩
  · rfl
  · dsimp only
    rcases comprehensionItems ev element binder items [] { middle with scope := state.scope }
      with ⟨exit | found, left⟩ <;> rfl

theorem composed_comprehension {element iterable : Expr} (binder : String)
    (helement : element ∈ ingredients.parts) (hiterable : iterable ∈ ingredients.parts) :
    Composed ingredients fun ev => comprehension ev element binder iterable := by
  have hsource : Composed ingredients fun ev => sourceItems ev iterable :=
    .bind (.ask hiterable) fun source => .perform (Builtin.within_items_of source)
  simp only [comprehension_eq]
  exact .bind (.aside hsource fun items => composed_comprehension_items helement binder items [])
    fun found => .perform (Action.within_new_list found.toArray)

/-! ## Assignments, errors and jumps -/

theorem composed_assign_index (h : ingredients.applies) {collection index value : Expr}
    (hcollection : collection ∈ ingredients.parts) (hindex : index ∈ ingredients.parts)
    (hvalue : value ∈ ingredients.parts) :
    Composed ingredients fun ev => assignIndex ev collection index value :=
  .bind (.ask hcollection) fun collection => .bind (.ask hindex) fun index =>
    .bind (.ask hvalue) fun value =>
      .bind (.apply (.setItem collection index value) rfl h) fun _ => .pure _

theorem composed_assign_attribute {object value : Expr} (name : String)
    (hobject : object ∈ ingredients.parts) (hvalue : value ∈ ingredients.parts) :
    Composed ingredients fun ev => assignAttribute ev object name value :=
  .bind (.ask hobject) fun object => .bind (.ask hvalue) fun value =>
    .bind (composed_set_attribute object name value) fun _ => .pure _

theorem composed_destructure (names : List String) {value : Expr}
    (h : value ∈ ingredients.parts) :
    Composed ingredients fun ev => destructure ev names value :=
  .bind (.ask h) fun value => .bind (.perform (Builtin.within_items_of value)) fun _ =>
    .check _ _ (.check _ _ (.bind (composed_bind_all _) fun _ => .pure _))

theorem composed_throw_value (h : ingredients.applies)
    (hexits : ∀ error, ingredients.exits (.thrown error)) {value : Expr} {cause : Option Expr}
    (hvalue : value ∈ ingredients.parts) (hcause : ∀ expr ∈ cause, expr ∈ ingredients.parts) :
    Composed ingredients fun ev => throwValue ev value cause := by
  refine .bind (.ask hvalue) fun thrown => ?_
  refine .bind (.perform (Builtin.within_to_error thrown)) fun error => ?_
  cases cause with
  | none => exact .throw (hexits error)
  | some cause =>
      exact .bind (.ask (hcause cause rfl)) fun causeValue =>
        .bind (.perform (Builtin.within_to_cause causeValue)) fun linked =>
          .bind (.apply (.cause error linked) rfl h) fun _ => .throw (hexits error)

theorem composed_return_value (hexits : ∀ value, ingredients.exits (.jump (.returning value)))
    {value : Option Expr} (h : ∀ expr ∈ value, expr ∈ ingredients.parts) :
    Composed ingredients fun ev => returnValue ev value := by
  cases value with
  | none => exact .throw (hexits _)
  | some expr => exact .bind (.ask (h expr rfl)) fun result => .throw (hexits result)

/-! ## All rules but one -/

/-- The handling of errors is the one construct that looks at how the evaluation of a part has
ended. -/
def HandlesErrors : Expr → Prop
  | .tryCatch _ _ _ => True
  | _ => False

theorem mem_second {first second : Expr} {rest : List Expr} : second ∈ first :: second :: rest :=
  List.mem_cons_of_mem _ List.mem_cons_self

/-- Both sides of the pairs in a row. -/
theorem mem_sides {pairs : List (Expr × Expr)} :
    ∀ pair ∈ pairs, pair.1 ∈ pairs.flatMap (fun pair => [pair.1, pair.2]) ∧
      pair.2 ∈ pairs.flatMap (fun pair => [pair.1, pair.2]) :=
  fun pair hpair =>
    ⟨List.mem_flatMap.mpr ⟨pair, hpair, List.mem_cons_self⟩,
      List.mem_flatMap.mpr ⟨pair, hpair, mem_second⟩⟩

/-- The rule of every construct but the handling of errors. -/
theorem composed_step {expr : Expr} (hexpr : ¬HandlesErrors expr) (fuel : Nat) :
    Composed expr.ingredients fun ev => step ev fuel expr := by
  cases expr with
  | int | string | bytes | bool | null => exact .pure _
  | float x => exact .perform (Action.within_new_float x)
  | imaginary x => exact .perform (Action.within_new_complex 0.0 x)
  | name name => exact composed_lookup name
  | binary operator left right =>
      exact composed_binary trivial operator List.mem_cons_self mem_second
  | unary operator operand =>
      exact .bind (.ask List.mem_cons_self) fun value => .perform (operator.within_apply value)
  | letBind name value | typedLet name _ value =>
      exact .bind (.ask List.mem_cons_self) fun value =>
        .bind (.bindName name value) fun _ => .pure _
  | constBind name value =>
      exact .bind (.ask List.mem_cons_self) fun value =>
        .bind (.bindConstant name value) fun _ => .pure _
  | assign name value =>
      exact .bind (.ask List.mem_cons_self) fun value =>
        .bind (.bindName name value) fun _ => .pure _
  | assignIndex collection index value =>
      exact composed_assign_index trivial List.mem_cons_self mem_second
        (List.mem_cons_of_mem _ mem_second)
  | assignAttribute object name value =>
      exact composed_assign_attribute name List.mem_cons_self mem_second
  | destructure names value => exact composed_destructure names List.mem_cons_self
  | block exprs => exact composed_body fun _ h => h
  | ifThen test thenBody elseBranch =>
      refine composed_if_then List.mem_cons_self (fun expr h => List.mem_cons_of_mem _ ?_)
        fun expr h => List.mem_cons_of_mem _ ?_
      · exact List.mem_append_left _ h
      · exact List.mem_append_right _ (Option.mem_toList.mpr h)
  | whileLoop test exprs => exact composed_while_rounds List.mem_cons_self rfl fuel .null
  | forLoop binder iterable exprs => exact composed_for_loop binder List.mem_cons_self
  | matchOn subject arms =>
      refine .bind (.ask List.mem_cons_self) fun value => composed_match_arms value fun arm h => ?_
      exact ⟨List.mem_cons_of_mem _ (mem_sides arm h).1, List.mem_cons_of_mem _ (mem_sides arm h).2⟩
  | tryCatch exprs binder handler => exact (hexpr trivial).elim
  | «throwError» value cause =>
      refine composed_throw_value trivial ?_ List.mem_cons_self ?_
      · exact fun error => ⟨error, rfl⟩
      · exact fun expr h => List.mem_cons_of_mem _ (Option.mem_toList.mpr h)
  | returnValue value =>
      refine composed_return_value ?_ fun expr h => Option.mem_toList.mpr h
      exact fun value => ⟨value, rfl⟩
  | breakLoop | continueLoop => exact .throw rfl
  | defineFunction name parameters exprs =>
      exact composed_define_function List.mem_cons_self name parameters
  | defineClass name bases members =>
      refine composed_define_class name bases ?_ ?_
      · exact fun member hmember value hvalue => List.mem_filterMap.mpr ⟨member, hmember, hvalue⟩
      · exact fun member hmember exprs hexprs => List.mem_filterMap.mpr ⟨member, hmember, hexprs⟩
  | defineStruct name fields => exact composed_define_struct name fields
  | defineEnum name variants => exact composed_define_enum name variants
  | call callee items =>
      exact composed_call trivial trivial trivial List.mem_cons_self fun _ => List.mem_cons_of_mem _
  | index collection index =>
      exact .bind (.ask List.mem_cons_self) fun collection => .bind (.ask mem_second) fun index =>
        .apply (.getItem collection index) rfl trivial
  | getAttribute object name | ownField object name =>
      exact .bind (.ask List.mem_cons_self) fun object => composed_get_attribute object name
  | methodCall object method items =>
      exact composed_method_call trivial trivial trivial method List.mem_cons_self
        fun _ => List.mem_cons_of_mem _
  | newObject className items =>
      exact .bind (composed_lookup_class className) fun id =>
        .bind (composed_values fun _ h => h) fun arguments =>
          composed_instantiate trivial id arguments
  | newRecord className fields =>
      exact composed_new_record className fun field h => List.mem_map_of_mem h
  | enumVariant enumName variant => exact composed_enum_variant enumName variant
  | list items =>
      exact .bind (composed_values fun _ h => h) fun values =>
        .perform (Action.within_new_list values.toArray)
  | tuple items =>
      exact .bind (composed_values fun _ h => h) fun values =>
        .perform (Action.within_new_tuple values)
  | set items =>
      exact .bind (composed_set_items (fun _ h => h) []) fun keys =>
        .perform (Action.within_new_set keys)
  | dict pairs =>
      exact .bind (composed_dict_pairs mem_sides Dict.empty) fun dict =>
        .perform (Action.within_new_dict dict)
  | comprehension element binder iterable =>
      exact composed_comprehension binder List.mem_cons_self mem_second
  | importModule target => exact composed_import_module target

end Eval

end Script
