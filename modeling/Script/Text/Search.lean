/-!
# Searching texts

Occurrences of a text in another, read from the left and without overlap: finding the first,
counting them, cutting at them and replacing them. A text that is searched for is given as a list
of characters and is usually not empty; the empty text occurs before every character and at the
end.
-/

namespace Script.Text

/-- The least place, counted from `place`, at which a text occurs. -/
def findFrom (sub : List Char) (place : Nat) : List Char → Option Nat
  | [] => if sub.isEmpty then some place else none
  | c :: rest =>
    if sub.isPrefixOf (c :: rest) then some place else findFrom sub (place + 1) rest

/-- The least place at which a text occurs. -/
def find? (sub text : List Char) : Option Nat :=
  findFrom sub 0 text

/-- The text occurs in the other. -/
def occursIn (sub text : List Char) : Bool :=
  (find? sub text).isSome

/-- The pieces between the occurrences of a separator that is not empty, at most `cuts` of which
count. The first piece goes on after `current`, which is given in reverse; `skip` characters
belong to the separator just met. -/
def splitFrom (separator : List Char) :
    Option Nat → Nat → List Char → List Char → List (List Char)
  | _, _, current, [] => [current.reverse]
  | cuts, skip + 1, current, _ :: rest => splitFrom separator cuts skip current rest
  | cuts, 0, current, c :: rest =>
    if cuts ≠ some 0 && separator.isPrefixOf (c :: rest) then
      current.reverse :: splitFrom separator (cuts.map (· - 1)) (separator.length - 1) [] rest
    else splitFrom separator cuts 0 (c :: current) rest

/-- The pieces between the occurrences of a separator that is not empty. -/
def split (separator text : List Char) : List (List Char) :=
  splitFrom separator none 0 [] text

/-- The number of occurrences of a text that is not empty; `skip` characters belong to the one just
met. -/
def countFrom (sub : List Char) : Nat → List Char → Nat
  | _, [] => 0
  | skip + 1, _ :: rest => countFrom sub skip rest
  | 0, c :: rest =>
    if sub.isPrefixOf (c :: rest) then countFrom sub (sub.length - 1) rest + 1
    else countFrom sub 0 rest

/-- The number of occurrences. -/
def count (sub text : List Char) : Nat :=
  if sub.isEmpty then text.length + 1 else countFrom sub 0 text

/-- The pieces with a text between them. -/
def join (separator : List Char) : List (List Char) → List Char
  | [] => []
  | [piece] => piece
  | piece :: pieces => piece ++ separator ++ join separator pieces

/-- The text with another before each character and at the end, at most `times` of them. -/
def interleave (new : List Char) : Option Nat → List Char → List Char
  | some 0, text => text
  | _, [] => new
  | times, c :: rest => new ++ c :: interleave new (times.map (· - 1)) rest

/-- The text with the occurrences of another that is not empty replaced, at most `times` of them;
`skip` characters belong to the one just met. -/
def replaceFrom (old new : List Char) : Option Nat → Nat → List Char → List Char
  | _, _, [] => []
  | times, skip + 1, _ :: rest => replaceFrom old new times skip rest
  | times, 0, c :: rest =>
    if times ≠ some 0 && old.isPrefixOf (c :: rest) then
      new ++ replaceFrom old new (times.map (· - 1)) (old.length - 1) rest
    else c :: replaceFrom old new times 0 rest

/-- The text with the occurrences of another replaced, at most `times` of them. -/
def replace (old new : List Char) (times : Option Nat) (text : List Char) : List Char :=
  if old.isEmpty then interleave new times text else replaceFrom old new times 0 text

/-- The text with `\n`, `\t` and `\r`, written with a backslash, turned into the characters they
stand for, one sort after the other. -/
def expandEscapes (text : List Char) : List Char :=
  replace ['\\', 'r'] ['\r'] none
    (replace ['\\', 't'] ['\t'] none (replace ['\\', 'n'] ['\n'] none text))

end Script.Text
