import Script.Table
import Script.Value

/-!
# Scopes

A scope binds the names of one call, or of the top level, to values, and knows which of them are
constant. Some names have a fixed value everywhere and cannot be bound by an assignment.
-/

namespace Script

/-- The bindings of a call or of the top level. -/
structure Scope where
  bindings : Table Value
  constants : List String
  deriving Inhabited

/-- The value of a name that cannot be bound. -/
def frozenValue? : String → Option Value
  | "True" => some (.bool true)
  | "False" => some (.bool false)
  | "None" => some .null
  | "__debug__" => some (.bool true)
  | "NotImplemented" => some .notImplemented
  | "Ellipsis" => some .ellipsis
  | _ => none

namespace Scope

/-- The scope without bindings. -/
def empty : Scope :=
  ⟨.empty, []⟩

/-- The value of a name. -/
def get? (scope : Scope) (name : String) : Option Value :=
  scope.bindings.get? name

/-- The name is constant. -/
def isConstant (scope : Scope) (name : String) : Bool :=
  scope.constants.contains name

/-- The scope with a name bound to a value. -/
def bind (scope : Scope) (name : String) (value : Value) : Scope :=
  { scope with bindings := scope.bindings.insert name value }

/-- Looking up a name after binding one. -/
theorem get?_bind (scope : Scope) (name other : String) (value : Value) :
    (scope.bind name value).get? other = if other = name then some value else scope.get? other :=
  Table.get?_insert scope.bindings name other value

@[simp]
theorem isConstant_bind (scope : Scope) (name other : String) (value : Value) :
    (scope.bind name value).isConstant other = scope.isConstant other :=
  rfl

/-- The scope with a name bound to a value for good. -/
def bindConstant (scope : Scope) (name : String) (value : Value) : Scope :=
  ⟨scope.bindings.insert name value,
    if scope.isConstant name then scope.constants else scope.constants ++ [name]⟩

/-- The scope with a parameter bound to its argument, which can be assigned to again. -/
def bindParameter (scope : Scope) (name : String) (value : Value) : Scope :=
  ⟨scope.bindings.insert name value, scope.constants.filter (· != name)⟩

/-- The scope without a name. -/
def erase (scope : Scope) (name : String) : Scope :=
  ⟨scope.bindings.erase name, scope.constants.filter (· != name)⟩

/-- The scope of a call: the bindings of the caller, then the receiver under the name `self`,
then the parameters. -/
def forCall (caller : Scope) (receiver : Option Value) (arguments : List (String × Value)) :
    Scope :=
  let withSelf :=
    match receiver with
    | some value => caller.bind "self" value
    | none => caller
  arguments.foldl (fun scope pair => scope.bindParameter pair.1 pair.2) withSelf

end Scope

end Script
