import Script.ErrorKind
import Script.Value.Range

/-!
# Values

What a program computes with. Immutable values are held as such; mutable objects (lists,
dictionaries, sets, byte arrays, instances and errors) and definitions (functions and classes)
are named by their number in the heap.

Some values are told apart although they look alike. A double that is not a number differs from
every other such double; a tuple, a frozen set or a method that was fetched from an object is a
new one each time it is made. Such values carry a mark that is given out when they are made.
-/

namespace Script

/-- A double. The mark tells doubles apart that are not a number. -/
structure MarkedFloat where
  value : Float
  mark : Nat
  deriving DecidableEq, Inhabited

/-- A complex number. The mark tells those apart of which a part is not a number. -/
structure MarkedComplex where
  re : Float
  im : Float
  mark : Nat
  deriving DecidableEq, Inhabited

/-- The functions that every program can call by name. -/
inductive BuiltinFunction where
  | print
  | input
  | range
  | list
  | tuple
  | set
  | frozenset
  | dict
  | bytes
  | bytearray
  | str
  | int
  | float
  | bool
  | complex
  | error (kind : ErrorKind)
  deriving DecidableEq, Inhabited

namespace BuiltinFunction

/-- The name of a built-in function. -/
def name : BuiltinFunction → String
  | .print => "print"
  | .input => "input"
  | .range => "range"
  | .list => "list"
  | .tuple => "tuple"
  | .set => "set"
  | .frozenset => "frozenset"
  | .dict => "dict"
  | .bytes => "bytes"
  | .bytearray => "bytearray"
  | .str => "str"
  | .int => "int"
  | .float => "float"
  | .bool => "bool"
  | .complex => "complex"
  | .error kind => kind.name

/-- All built-in functions. -/
def all : List BuiltinFunction :=
  [.print, .input, .range, .list, .tuple, .set, .frozenset, .dict, .bytes, .bytearray, .str, .int,
   .float, .bool, .complex] ++ ErrorKind.all.map .error

/-- The built-in function with a given name. -/
def ofName? (text : String) : Option BuiltinFunction :=
  all.find? fun builtin => builtin.name == text

end BuiltinFunction

abbrev ListId := Nat
abbrev DictId := Nat
abbrev SetId := Nat
abbrev ByteArrayId := Nat
abbrev FunctionId := Nat
abbrev ClassId := Nat
abbrev InstanceId := Nat
abbrev ErrorId := Nat

/-- The values of the language. -/
inductive Value where
  | null
  | notImplemented
  | ellipsis
  | bool (value : Bool)
  | int (value : Int)
  | float (value : MarkedFloat)
  | complex (value : MarkedComplex)
  | str (value : String)
  | bytes (value : List UInt8)
  | bytearray (id : ByteArrayId)
  | list (id : ListId)
  | tuple (mark : Nat) (items : List Value)
  | dict (id : DictId)
  | set (id : SetId)
  | frozenset (mark : Nat) (items : List Value)
  | range (value : Range)
  | function (id : FunctionId)
  | boundMethod (mark : Nat) (receiver : InstanceId) (function : FunctionId)
  | builtin (function : BuiltinFunction)
  | builtinMethod (mark : Nat) (object : Value) (method : String)
  | classObject (id : ClassId)
  | object (id : InstanceId)
  | enumVariant (enumName variant : String)
  | error (id : ErrorId)
  deriving Inhabited

namespace Value

mutual

/-- The value can be a key: no mutable object, and no tuple that holds one. -/
def isHashable : Value → Bool
  | .list _ | .dict _ | .set _ | .bytearray _ | .object _ | .error _ => false
  | .tuple _ items => areHashable items
  | _ => true

/-- All the values can be keys. -/
def areHashable : List Value → Bool
  | [] => true
  | item :: items => isHashable item && areHashable items

end

end Value

end Script
