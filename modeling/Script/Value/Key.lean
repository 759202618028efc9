import Script.Number.Numeric
import Script.Value

/-!
# Keys

When two keys are the same: if they are the same object or if they are equal. Numbers are equal
across sorts, so `1`, `true` and `1.0` are one key. A double that is not a number is the same key
only as itself. Keys are immutable, so no heap is needed to compare them.

Sets are lists of pairwise different keys, and dictionaries are lists of entries with pairwise
different keys.
-/

namespace Script

namespace Value

open Number (Numeric)

/-- The number that a value stands for; a truth value stands for one or zero. -/
def numeric? : Value → Option Numeric
  | .bool b => some (.int (if b then 1 else 0))
  | .int n => some (.int n)
  | .float x => some (.float x.value)
  | .complex z => some (.complex z.re z.im)
  | _ => none

/-- The values are numbers and are equal as numbers. -/
def numericEqual (a b : Value) : Bool :=
  match a.numeric?, b.numeric? with
  | some m, some n => m.equal n
  | _, _ => false

/-- The values are one and the same double or complex number that is not a number. -/
def sameNaN : Value → Value → Bool
  | .float x, .float y => x.mark == y.mark && x.value.isNaN && y.value.isNaN
  | .complex x, .complex y =>
    x.mark == y.mark && (x.re.isNaN || x.im.isNaN) && (y.re.isNaN || y.im.isNaN)
  | _, _ => false

/-- The values are equal, for values that have no parts. Objects and definitions are equal only
to themselves. -/
def atomEqual : Value → Value → Bool
  | .null, .null | .notImplemented, .notImplemented | .ellipsis, .ellipsis => true
  | .str a, .str b => a == b
  | .bytes a, .bytes b => a == b
  | .range a, .range b => a.sameMembers b
  | .function a, .function b | .classObject a, .classObject b | .object a, .object b
  | .list a, .list b | .dict a, .dict b | .set a, .set b | .bytearray a, .bytearray b
  | .error a, .error b => a == b
  | .boundMethod a _ _, .boundMethod b _ _ | .builtinMethod a _ _, .builtinMethod b _ _ => a == b
  | .builtin a, .builtin b => a == b
  | .enumVariant a x, .enumVariant b y => a == b && x == y
  | a, b => numericEqual a b

mutual

/-- The keys are the same. -/
def sameKey : Value → Value → Bool
  | .tuple _ xs, b =>
    match b with
    | .tuple _ ys => sameKeys xs ys
    | _ => false
  | .frozenset _ xs, b =>
    match b with
    | .frozenset _ ys => xs.length == ys.length && keysWithin xs ys
    | _ => false
  | a, b => atomEqual a b || sameNaN a b

/-- The keys are the same, one by one. -/
def sameKeys : List Value → List Value → Bool
  | [], ys => ys.isEmpty
  | x :: xs, ys =>
    match ys with
    | [] => false
    | y :: ys => sameKey x y && sameKeys xs ys

/-- Every key of the first list is in the second. -/
def keysWithin : List Value → List Value → Bool
  | [], _ => true
  | x :: xs, ys => ys.any (fun y => sameKey x y) && keysWithin xs ys

end

end Value

namespace Keys

/-- The key is in the set. -/
def mem (key : Value) (keys : List Value) : Bool :=
  keys.any fun other => key.sameKey other

/-- The set with a key; a key that is already there stays as it is. -/
def insert (keys : List Value) (key : Value) : List Value :=
  if mem key keys then keys else keys ++ [key]

/-- The set with all the given keys. -/
def insertAll (keys : List Value) (others : List Value) : List Value :=
  others.foldl insert keys

/-- The set of the given keys; of equal ones the first is kept. -/
def ofList (keys : List Value) : List Value :=
  insertAll [] keys

/-- The set without a key. -/
def erase (keys : List Value) (key : Value) : List Value :=
  keys.filter fun other => !key.sameKey other

/-- The keys that are also in the other set. -/
def inter (keys others : List Value) : List Value :=
  keys.filter fun key => mem key others

/-- The keys that are not in the other set. -/
def diff (keys others : List Value) : List Value :=
  keys.filter fun key => !mem key others

/-- The keys that are in one of the sets and not in both. -/
def symmDiff (keys others : List Value) : List Value :=
  diff keys others ++ diff others keys

/-- Every key of the first set is in the second. -/
def subset (keys others : List Value) : Bool :=
  keys.all fun key => mem key others

/-- The sets have the same keys. -/
def sameSet (keys others : List Value) : Bool :=
  keys.length == others.length && subset keys others

end Keys

/-- A dictionary: entries with pairwise different keys, in the order in which the keys were first
bound. -/
structure Dict where
  entries : List (Value × Value)
  deriving Inhabited

namespace Dict

/-- The dictionary without entries. -/
def empty : Dict :=
  ⟨[]⟩

/-- The value bound to a key. -/
def get? (dict : Dict) (key : Value) : Option Value :=
  (dict.entries.find? fun entry => key.sameKey entry.1).map (·.2)

/-- The key is bound. -/
def contains (dict : Dict) (key : Value) : Bool :=
  (dict.get? key).isSome

/-- Entries with a key bound anew: in its old place, where the old key is kept, or at the end. -/
def insertInto (key value : Value) : List (Value × Value) → List (Value × Value)
  | [] => [(key, value)]
  | entry :: rest =>
    if key.sameKey entry.1 then (entry.1, value) :: rest
    else entry :: insertInto key value rest

/-- The dictionary with a key bound to a value. -/
def insert (dict : Dict) (key value : Value) : Dict :=
  ⟨insertInto key value dict.entries⟩

/-- The dictionary with all the entries of another bound, one after the other. -/
def insertAll (dict other : Dict) : Dict :=
  other.entries.foldl (fun merged entry => merged.insert entry.1 entry.2) dict

/-- The dictionary without a key. -/
def erase (dict : Dict) (key : Value) : Dict :=
  ⟨dict.entries.filter fun entry => !key.sameKey entry.1⟩

/-- The keys, in order. -/
def keys (dict : Dict) : List Value :=
  dict.entries.map (·.1)

/-- The values, in the order of their keys. -/
def values (dict : Dict) : List Value :=
  dict.entries.map (·.2)

/-- The number of entries. -/
def size (dict : Dict) : Nat :=
  dict.entries.length

end Dict

end Script
