import Script.Expr
import Script.Store
import Script.Table
import Script.Value.Key

/-!
# The heap

The contents of the mutable objects and of the definitions that values name by number, with the
supply of marks and the limit on the depth of calls. Nothing is ever removed from the heap.
-/

namespace Script

/-- The three sorts of class. -/
inductive ClassKind where
  | regular
  | struct
  | enum
  deriving DecidableEq, Inhabited

/-- The name of a sort of class. -/
def ClassKind.name : ClassKind → String
  | .regular => "class"
  | .struct => "struct"
  | .enum => "enum"

/-- A function that a program has defined. -/
structure FunctionDef where
  name : String
  parameters : List String
  body : List Expr
  deriving Inhabited

/-- The function expects its receiver as its first parameter. -/
def FunctionDef.takesSelf (function : FunctionDef) : Bool :=
  function.parameters.head? == some "self"

/-- A class, struct or enumeration that a program has defined, with what it defines itself. -/
structure ClassDef where
  name : String
  kind : ClassKind
  base : Option ClassId
  methods : Table FunctionId
  fields : Table Value
  variants : List String
  deriving Inhabited

/-- An instance of a class or struct. -/
structure Instance where
  classId : ClassId
  fields : Table Value
  deriving Inhabited

/-- An error as a value: its kind and arguments, the list of its notes, and the errors that it is
linked to. -/
structure ErrorObject where
  kind : ErrorKind
  arguments : List String
  notes : ListId
  cause : Option ErrorId
  context : Option ErrorId
  suppressContext : Bool
  deriving Inhabited

/-- The text of an error: its only argument, or all of them with commas between. -/
def ErrorObject.message (error : ErrorObject) : String :=
  ", ".intercalate error.arguments

/-- The kind of an error with its arguments in parentheses. -/
def ErrorObject.format (error : ErrorObject) : String :=
  error.kind.name ++ "(" ++ error.message ++ ")"

/-- The contents of all objects and definitions. The limit on the depth of calls stands here, since
it decides how deeply values may be nested too. -/
structure Heap where
  lists : Store (Array Value)
  dicts : Store Dict
  sets : Store (List Value)
  bytearrays : Store (List UInt8)
  functions : Store FunctionDef
  classes : Store ClassDef
  instances : Store Instance
  errors : Store ErrorObject
  nextMark : Nat
  maxDepth : Nat

/-- The frames of its own that the machine counts for a call at most. -/
def framesPerCall : Nat := 40

/-- The frames of its own that the machine has where no program is run. -/
def hostFrames : Nat := 1000

/-- The frames of its own that the machine has while a program is run under a limit on the depth of
calls. -/
def framesFor (maxDepth : Nat) : Nat :=
  maxDepth * framesPerCall + hostFrames

theorem frames_for_mono {maxDepth limit : Nat} (h : maxDepth ≤ limit) :
    framesFor maxDepth ≤ framesFor limit :=
  Nat.add_le_add_right (Nat.mul_le_mul_right framesPerCall h) hostFrames

namespace Heap

/-- The heap without objects, under a limit on the depth of calls. Mark zero belongs to the double
that stands for no number. -/
def empty (maxDepth : Nat) : Heap :=
  ⟨.empty, .empty, .empty, .empty, .empty, .empty, .empty, .empty, 1, maxDepth⟩

instance : Inhabited Heap :=
  ⟨empty 0⟩

/-- The heap with another limit on the depth of calls. -/
def withLimit (heap : Heap) (limit : Nat) : Heap :=
  { heap with maxDepth := limit }

/-- The heap as the machine has it where no program is run, so that there are no calls to set frames
aside for. -/
def atRest (heap : Heap) : Heap :=
  heap.withLimit 0

/-- The items of a list. -/
def list (heap : Heap) (id : ListId) : Array Value :=
  heap.lists.get id

/-- The entries of a dictionary. -/
def dict (heap : Heap) (id : DictId) : Dict :=
  heap.dicts.get id

/-- The members of a set. -/
def set (heap : Heap) (id : SetId) : List Value :=
  heap.sets.get id

/-- The bytes of a byte array. -/
def bytearray (heap : Heap) (id : ByteArrayId) : List UInt8 :=
  heap.bytearrays.get id

/-- A function. -/
def function (heap : Heap) (id : FunctionId) : FunctionDef :=
  heap.functions.get id

/-- A class. -/
def classDef (heap : Heap) (id : ClassId) : ClassDef :=
  heap.classes.get id

/-- An instance. -/
def instanceOf (heap : Heap) (id : InstanceId) : Instance :=
  heap.instances.get id

/-- The class of an instance. -/
def classOf (heap : Heap) (id : InstanceId) : ClassDef :=
  heap.classDef (heap.instanceOf id).classId

/-- An error. -/
def error (heap : Heap) (id : ErrorId) : ErrorObject :=
  heap.errors.get id

/-- A class and the classes it inherits from, derived first. Bases are older than what derives
from them, so the chain is no longer than the class's number. -/
def lineageFrom (heap : Heap) : Nat → ClassId → List ClassId
  | 0, id => [id]
  | steps + 1, id =>
    match (heap.classDef id).base with
    | none => [id]
    | some base => id :: lineageFrom heap steps base

/-- A class and the classes it inherits from, derived first. -/
def lineage (heap : Heap) (id : ClassId) : List ClassId :=
  lineageFrom heap id id

/-- The method that a class defines or inherits under a name. -/
def findMethod? (heap : Heap) (id : ClassId) (name : String) : Option FunctionId :=
  (heap.lineage id).findSome? fun ancestor => (heap.classDef ancestor).methods.get? name

/-- The default of a field that a class defines or inherits under a name. -/
def findField? (heap : Heap) (id : ClassId) (name : String) : Option Value :=
  (heap.lineage id).findSome? fun ancestor => (heap.classDef ancestor).fields.get? name

/-- All the fields of a class with their defaults, base first. -/
def fieldDefaults (heap : Heap) (id : ClassId) : Table Value :=
  (heap.lineage id).reverse.foldl
    (fun merged ancestor => merged.insertAll (heap.classDef ancestor).fields) Table.empty

/-- The first class is the second or inherits from it. -/
def isSubclass (heap : Heap) (id ancestor : ClassId) : Bool :=
  (heap.lineage id).contains ancestor

/-- The name of a value's type, as it is shown to a program. -/
def typeName (heap : Heap) : Value → String
  | .null => "NoneType"
  | .notImplemented => "NotImplementedType"
  | .ellipsis => "ellipsis"
  | .bool _ => "bool"
  | .int _ => "int"
  | .float _ => "float"
  | .complex _ => "complex"
  | .str _ => "str"
  | .bytes _ => "bytes"
  | .bytearray _ => "bytearray"
  | .list _ => "list"
  | .tuple _ _ => "tuple"
  | .dict _ => "dict"
  | .set _ => "set"
  | .frozenset _ _ => "frozenset"
  | .range _ => "range"
  | .function _ => "function"
  | .boundMethod _ _ _ => "method"
  | .builtin _ | .builtinMethod _ _ _ => "builtin_function_or_method"
  | .classObject _ => "type"
  | .object id => (heap.classOf id).name
  | .enumVariant enumName _ => enumName
  | .error id => (heap.error id).kind.name

end Heap

end Script
