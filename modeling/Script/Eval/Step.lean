import Script.Eval.Object

/-!
# Evaluating expressions

Every construct is evaluated by a rule of its own, which is given the evaluation of the parts as
a parameter. `evaluate` ties the knot: its first argument bounds how deeply evaluations may be
nested and how often a loop may run, and an evaluation that would go further ends as
`Exit.outOfFuel`.

A call runs in a copy of the scope of its caller, and so does a comprehension; all other
constructs share the scope they stand in.
-/

namespace Script

namespace Eval

/-- The evaluation of the parts of an expression. -/
abbrev Evaluator := Expr → Eval Value

/-- Expressions one after the other; the value is that of the last, or `last` without any. -/
def statements (ev : Evaluator) : List Expr → Value → Eval Value
  | [], last => return last
  | expr :: rest, _ => do
    let value ← ev expr
    statements ev rest value

/-- A body of statements. -/
def body (ev : Evaluator) (exprs : List Expr) : Eval Value :=
  statements ev exprs .null

/-- The values of expressions, from left to right. -/
def values (ev : Evaluator) : List Expr → Eval (List Value)
  | [] => return []
  | expr :: rest => do
    let value ← ev expr
    return value :: (← values ev rest)

/-- Whether the value of an expression counts as true. -/
def condition (ev : Evaluator) (expr : Expr) : Eval Bool := do
  let value ← ev expr
  perform (Action.isTruthy value)

/-- The name of a jump in messages. -/
def jumpName : Jump → String
  | .returning _ => "return"
  | .breaking => "break"
  | .continuing => "continue"

/-- Runs the body of a call or program: a `return` ends it with a value, and a jump that belongs
to no loop is an error. -/
def atBoundary (run : Eval Value) : Eval Value := fun state =>
  match run state with
  | (.error (.jump (.returning value)), state) => (.ok value, state)
  | (.error (.jump jump), state) =>
    raise .syntaxError s!"'{jumpName jump}' outside loop" state
  | result => result

/-- Runs a body in a scope of its own, one call deeper. -/
def inFrame (frame : Scope) (run : Eval Value) : Eval Value := fun state =>
  let entered : EvalState :=
    ⟨frame, { state.world with depth := state.world.depth + 1 }⟩
  let (result, left) := run entered
  (result, ⟨state.scope, { left.world with depth := left.world.depth - 1 }⟩)

/-- The message for a call with the wrong number of arguments. -/
def wrongCount (name : String) (expected given : Nat) : String :=
  s!"{name}() takes {expected} positional arguments but {given} were given"

/-- Calls a function with a receiver or without. The number of arguments is checked before the
depth of calls. -/
def callFunction (ev : Evaluator) (id : FunctionId) (items : List Value)
    (receiver : Option InstanceId) : Eval Value := do
  let definition := (← heap).function id
  let parameters :=
    if receiver.isSome && definition.takesSelf then definition.parameters.tail
    else definition.parameters
  if items.length ≠ parameters.length then
    raise .typeError (wrongCount definition.name parameters.length items.length)
  let frame := (← scope).forCall (receiver.map .object) (parameters.zip items)
  let world := (← get).world
  if world.maxDepth ≤ world.depth then raise .recursionError recursionMessage
  atBoundary (inFrame frame (body ev definition.body))

/-- Makes an instance of a class. The method `__init__` is called with the arguments; a struct
takes one for each field. -/
def instantiate (ev : Evaluator) (id : ClassId) (items : List Value) : Eval Value := do
  let heap ← heap
  let definition := heap.classDef id
  match definition.kind with
  | .enum => raise .typeError s!"cannot instantiate enum '{definition.name}'"
  | .struct =>
    if items.length ≠ definition.fields.size then
      raise .typeError (wrongCount definition.name definition.fields.size items.length)
    let fields := Table.ofList (definition.fields.names.zip items)
    return .object (← perform (Action.newInstance ⟨id, fields⟩))
  | .regular =>
    let object ← perform (Action.newInstance ⟨id, heap.fieldDefaults id⟩)
    match heap.findMethod? id "__init__" with
    | some method =>
      let _ ← callFunction ev method items (some object)
      return .object object
    | none =>
      if items.isEmpty then return .object object
      else raise .typeError s!"{definition.name}() takes no arguments"

/-- Calls a value. -/
def callValue (ev : Evaluator) (callee : Value) (items : List Value) : Eval Value := do
  match callee with
  | .function id => callFunction ev id items none
  | .boundMethod _ receiver id => callFunction ev id items (some receiver)
  | .builtinMethod _ object method => perform (Builtin.callMethod object method items)
  | .builtin function => callBuiltin function items
  | .classObject id => instantiate ev id items
  | _ =>
    let name := (← heap).typeName callee
    raise .typeError s!"'{name}' object is not callable"

/-- One round of a loop: its value, and whether the loop ends. -/
def loopRound (ev : Evaluator) (exprs : List Expr) : Eval (Value × Bool) := fun state =>
  match body ev exprs state with
  | (.ok value, state) => (.ok (value, false), state)
  | (.error (.jump .breaking), state) => (.ok (.null, true), state)
  | (.error (.jump .continuing), state) => (.ok (.null, false), state)
  | (.error exit, state) => (.error exit, state)

/-- The rounds of a `while` loop, at most `fuel` of them. -/
def whileRounds (ev : Evaluator) (test : Expr) (exprs : List Expr) :
    Nat → Value → Eval Value
  | 0, _ => throw .outOfFuel
  | fuel + 1, last => do
    if ← condition ev test then
      let (value, ends) ← loopRound ev exprs
      if ends then return value else whileRounds ev test exprs fuel value
    else return last

/-- The rounds of a `for` loop over the items that are left. -/
def forRounds (ev : Evaluator) (binder : String) (exprs : List Expr) :
    List Value → Value → Eval Value
  | [], last => return last
  | item :: items, _ => do
    bindName binder item
    let (value, ends) ← loopRound ev exprs
    if ends then return value else forRounds ev binder exprs items value

/-- The values of the element of a comprehension for each item. -/
def comprehensionItems (ev : Evaluator) (element : Expr) (binder : String) :
    List Value → List Value → Eval (List Value)
  | [], done => return done.reverse
  | item :: items, done => do
    bindName binder item
    let value ← ev element
    comprehensionItems ev element binder items (value :: done)

/-- A comprehension. Its element is evaluated in a copy of the scope that was taken before the
iterable is evaluated. -/
def comprehension (ev : Evaluator) (element : Expr) (binder : String) (iterable : Expr) :
    Eval Value := do
  let inner ← scope
  let source ← ev iterable
  let items ← perform (Builtin.itemsOf source)
  let outer ← scope
  let results : Eval (List Value) := fun state =>
    let (result, left) :=
      comprehensionItems ev element binder items [] { state with scope := inner }
    (result, { left with scope := outer })
  let found ← results
  perform (Action.newList found.toArray)

/-- The first arm of a `match` whose pattern equals the subject. The name `_` matches all. -/
def matchArms (ev : Evaluator) (subject : Value) : List (Expr × Expr) → Eval Value
  | [] => return .null
  | (.name "_", result) :: _ => ev result
  | (pattern, result) :: rest => do
    let value ← ev pattern
    if ← perform (Action.equal subject value) then ev result else matchArms ev subject rest

/-- Runs the handler of an error. An error that the handler throws is linked to the one it was
handling, unless it is that error or has been linked before. -/
def handle (ev : Evaluator) (caught : ErrorId) (binder : Option String) (handler : List Expr) :
    Eval Value := fun state =>
  let run : Eval Value := do
    record (.caught ((← heap).error caught).format)
    if let some name := binder then bindName name (.error caught)
    body ev handler
  match run state with
  | (.error (.thrown inner), state) =>
    let link : Eval Value := do
      if inner ≠ caught && ((← heap).error inner).context.isNone then
        perform (Action.setError inner fun error => { error with context := some caught })
      throw (.thrown inner)
    link state
  | result => result

/-- Errors of the body, and too deep a recursion, are handled. -/
def tryCatch (ev : Evaluator) (exprs : List Expr) (binder : Option String)
    (handler : List Expr) : Eval Value := fun state =>
  match body ev exprs state with
  | (.error (.thrown error), state) => handle ev error binder handler state
  | (.error (.fault .recursion), state) =>
    let recover : Eval Value := do
      let error ← perform (Action.newError .recursionError [recursionMessage])
      handle ev error binder handler
    recover state
  | result => result

/-- Throws a value as an error, linked to a cause if one is given. -/
def throwValue (ev : Evaluator) (value : Expr) (cause : Option Expr) : Eval Value := do
  let thrown ← ev value
  let error ← perform (Builtin.toError thrown)
  if let some cause := cause then
    let causeValue ← ev cause
    let linked ← perform (Builtin.toCause causeValue)
    perform (Action.setError error fun contents =>
      { contents with cause := linked, suppressContext := true })
  throw (.thrown error)

/-- Binds names to the items of a value, one after the other. -/
def bindAll : List (String × Value) → Eval Unit
  | [] => return
  | (name, value) :: rest => do
    bindName name value
    bindAll rest

/-- Binds names to the items of a value, of which there have to be as many. -/
def destructure (ev : Evaluator) (names : List String) (expr : Expr) : Eval Value := do
  let value ← ev expr
  let items ← perform (Builtin.itemsOf value)
  if items.length < names.length then
    raise .valueError
      s!"not enough values to unpack (expected {names.length}, got {items.length})"
  if names.length < items.length then
    raise .valueError s!"too many values to unpack (expected {names.length})"
  bindAll (names.zip items)
  return value

/-- The members of a class, added to those defined before. -/
def classMembers (ev : Evaluator) : List Expr → ClassDef → Eval ClassDef
  | [], definition => return definition
  | .defineFunction name parameters exprs :: rest, definition => do
    let method ← makeFunction name parameters exprs
    classMembers ev rest { definition with methods := definition.methods.insert name method }
  | .assign name value :: rest, definition
  | .letBind name value :: rest, definition
  | .typedLet name _ value :: rest, definition => do
    let default ← ev value
    classMembers ev rest { definition with fields := definition.fields.insert name default }
  | _ :: _, _ =>
    raise .syntaxError "class body may only contain methods and field defaults"

/-- Defines a class. Only the first base counts, and it cannot be a struct or enumeration. -/
def defineClass (ev : Evaluator) (name : String) (bases : List String) (members : List Expr) :
    Eval Value := do
  let base ←
    match bases with
    | [] => pure none
    | baseName :: _ => do
      let id ← lookupClass baseName
      let definition := (← heap).classDef id
      if definition.kind ≠ .regular then
        raise .typeError s!"cannot inherit from {definition.kind.name} '{definition.name}'"
      pure (some (id, definition.name))
  let definition ←
    classMembers ev members ⟨name, .regular, base.map (·.1), .empty, .empty, []⟩
  addClass definition
  record (.classDefined name (base.map (·.2)))
  return .null

/-- The fields of a new record, added to those bound before. -/
def recordFields (ev : Evaluator) (definition : ClassDef) :
    List (String × Expr) → Table Value → Eval (Table Value)
  | [], fields => return fields
  | (name, expr) :: rest, fields => do
    if definition.kind = .struct && !definition.fields.contains name then
      raise .attributeError s!"struct '{definition.name}' has no field '{name}'"
    let value ← ev expr
    recordFields ev definition rest (fields.insert name value)

/-- Makes an instance with given fields and defaults for the others. -/
def newRecord (ev : Evaluator) (className : String) (fields : List (String × Expr)) :
    Eval Value := do
  let id ← lookupClass className
  let heap ← heap
  let definition := heap.classDef id
  if definition.kind = .enum then
    raise .typeError s!"cannot instantiate enum '{definition.name}'"
  let bound ← recordFields ev definition fields (heap.fieldDefaults id)
  return .object (← perform (Action.newInstance ⟨id, bound⟩))

/-- The members of a set, added to those before. -/
def setItems (ev : Evaluator) : List Expr → List Value → Eval (List Value)
  | [], keys => return keys
  | expr :: rest, keys => do
    let key ← ev expr
    perform (Action.ensureHashable key)
    setItems ev rest (Keys.insert keys key)

/-- The entries of a dictionary, added to those before. -/
def dictPairs (ev : Evaluator) : List (Expr × Expr) → Dict → Eval Dict
  | [], dict => return dict
  | (keyExpr, valueExpr) :: rest, dict => do
    let key ← ev keyExpr
    perform (Action.ensureHashable key)
    let value ← ev valueExpr
    dictPairs ev rest (dict.insert key value)

/-- A call. A name that is in the table of functions means that function, whatever else it may be
bound to. -/
def call (ev : Evaluator) (callee : Expr) (items : List Expr) : Eval Value := do
  let functions := (← get).world.functions
  let direct : Option FunctionId :=
    match callee with
    | .name name => functions.get? name
    | _ => none
  match direct with
  | some id =>
    let arguments ← values ev items
    callFunction ev id arguments none
  | none =>
    let target ← ev callee
    let arguments ← values ev items
    callValue ev target arguments

/-- A call of a method. Methods of instances and classes are looked up after the arguments have
been evaluated. -/
def methodCall (ev : Evaluator) (object : Expr) (method : String) (items : List Expr) :
    Eval Value := do
  let receiver ← ev object
  let arguments ← values ev items
  match receiver with
  | .object _ | .classObject _ =>
    let target ← getAttribute receiver method
    callValue ev target arguments
  | _ => perform (Builtin.callMethod receiver method arguments)

/-- Binary operators; `and` and `or` evaluate their second operand only if the first does not
decide. -/
def binary (ev : Evaluator) (operator : BinaryOperator) (left right : Expr) : Eval Value := do
  match operator with
  | .and =>
    if ← condition ev left then return .bool (← condition ev right) else return .bool false
  | .or =>
    if ← condition ev left then return .bool true else return .bool (← condition ev right)
  | _ =>
    let leftValue ← ev left
    let rightValue ← ev right
    perform (operator.apply leftValue rightValue)

/-- A conditional. -/
def ifThen (ev : Evaluator) (test : Expr) (thenBody : List Expr) (elseBranch : Option Expr) :
    Eval Value := do
  if ← condition ev test then body ev thenBody
  else
    match elseBranch with
    | some branch => ev branch
    | none => return .null

/-- A `for` loop over the items that a value has when the loop starts. -/
def forLoop (ev : Evaluator) (binder : String) (iterable : Expr) (exprs : List Expr) :
    Eval Value := do
  let source ← ev iterable
  let items ← perform (Builtin.itemsOf source)
  forRounds ev binder exprs items .null

/-- The variant of an enumeration. -/
def enumVariant (enumName variant : String) : Eval Value := do
  let id ← lookupClass enumName
  let definition := (← heap).classDef id
  if definition.kind ≠ .enum then raise .typeError s!"'{definition.name}' is not an enum"
  classAttribute id variant

/-- Binds the name of a module to an empty dictionary. -/
def importModule (target : String) : Eval Value := do
  let name := Builtin.moduleName target
  record (.imported target name)
  let dict ← perform (Action.newDict Dict.empty)
  bindName name dict
  return .null

/-- Assigns to an item of a collection. -/
def assignIndex (ev : Evaluator) (collection index value : Expr) : Eval Value := do
  let collection ← ev collection
  let index ← ev index
  let value ← ev value
  perform (Builtin.setItem collection index value)
  return value

/-- Assigns to an attribute of an instance. -/
def assignAttribute (ev : Evaluator) (object : Expr) (name : String) (value : Expr) :
    Eval Value := do
  let object ← ev object
  let value ← ev value
  setAttribute object name value
  return value

/-- Defines a struct, whose fields have no defaults. -/
def defineStruct (name : String) (fields : List String) : Eval Value := do
  let defaults := Table.ofList (fields.map fun field => (field, Value.null))
  addClass ⟨name, .struct, none, .empty, defaults, []⟩
  record (.structDefined name)
  return .null

/-- Defines an enumeration. -/
def defineEnum (name : String) (variants : List String) : Eval Value := do
  addClass ⟨name, .enum, none, .empty, .empty, variants⟩
  record (.enumDefined name)
  return .null

/-- Defines a function. -/
def defineFunction (name : String) (parameters : List String) (exprs : List Expr) :
    Eval Value := do
  let id ← makeFunction name parameters exprs
  modifyWorld fun world => { world with functions := world.functions.insert name id }
  return .null

/-- Leaves a function with a value. -/
def returnValue (ev : Evaluator) (value : Option Expr) : Eval Value := do
  match value with
  | none => throw (.jump (.returning .null))
  | some expr =>
    let result ← ev expr
    throw (.jump (.returning result))

/-- The rule of each construct. Loops may run at most `fuel` rounds. -/
def step (ev : Evaluator) (fuel : Nat) : Expr → Eval Value
  | .int n => return .int n
  | .float x => perform (Action.newFloat x)
  | .imaginary x => perform (Action.newComplex 0.0 x)
  | .string s => return .str s
  | .bytes bytes => return .bytes bytes
  | .bool b => return .bool b
  | .null => return .null
  | .name name => lookup name
  | .binary operator left right => binary ev operator left right
  | .unary operator operand => do
    let value ← ev operand
    perform (operator.apply value)
  | .letBind name value | .typedLet name _ value => do
    let value ← ev value
    bindName name value
    return .null
  | .constBind name value => do
    let value ← ev value
    bindConstant name value
    return .null
  | .assign name value => do
    let value ← ev value
    bindName name value
    return value
  | .assignIndex collection index value => assignIndex ev collection index value
  | .assignAttribute object name value => assignAttribute ev object name value
  | .destructure names value => destructure ev names value
  | .block exprs => body ev exprs
  | .ifThen test thenBody elseBranch => ifThen ev test thenBody elseBranch
  | .whileLoop test exprs => whileRounds ev test exprs fuel .null
  | .forLoop binder iterable exprs => forLoop ev binder iterable exprs
  | .matchOn subject arms => do
    let value ← ev subject
    matchArms ev value arms
  | .tryCatch exprs binder handler => tryCatch ev exprs binder handler
  | .throwError value cause => throwValue ev value cause
  | .returnValue value => returnValue ev value
  | .breakLoop => throw (.jump .breaking)
  | .continueLoop => throw (.jump .continuing)
  | .defineFunction name parameters exprs => defineFunction name parameters exprs
  | .defineClass name bases members => defineClass ev name bases members
  | .defineStruct name fields => defineStruct name fields
  | .defineEnum name variants => defineEnum name variants
  | .call callee items => call ev callee items
  | .index collection index => do
    let collection ← ev collection
    let index ← ev index
    perform (Builtin.getItem collection index)
  | .getAttribute object name | .ownField object name => do
    let object ← ev object
    getAttribute object name
  | .methodCall object method items => methodCall ev object method items
  | .newObject className items => do
    let id ← lookupClass className
    let arguments ← values ev items
    instantiate ev id arguments
  | .newRecord className fields => newRecord ev className fields
  | .enumVariant enumName variant => enumVariant enumName variant
  | .list items => do
    let values ← values ev items
    perform (Action.newList values.toArray)
  | .tuple items => do
    let values ← values ev items
    perform (Action.newTuple values)
  | .set items => do
    let keys ← setItems ev items []
    perform (Action.newSet keys)
  | .dict pairs => do
    let dict ← dictPairs ev pairs Dict.empty
    perform (Action.newDict dict)
  | .comprehension element binder iterable => comprehension ev element binder iterable
  | .importModule target => importModule target

/-- The value of an expression, if it can be computed with the given fuel. -/
def evaluate : Nat → Expr → Eval Value
  | 0, _ => throw .outOfFuel
  | fuel + 1, expr => step (evaluate fuel) fuel expr

end Eval

end Script
