/-!
# Paths

A path is cut into the names between its slashes; empty names and single dots say nothing.
-/

namespace Script

/-- A path: the slashes at its front, as far as they matter, and its names. -/
structure Path where
  root : String
  names : List String
  deriving DecidableEq, Repr

namespace Path

/-- The root of a path by the number of slashes at its front: two stay, any other number counts
as one. -/
def rootOf : Nat → String
  | 0 => ""
  | 2 => "//"
  | _ => "/"

/-- The name leads somewhere else. -/
def isStep (name : String) : Bool :=
  name ≠ "" && name ≠ "."

/-- Cuts a text into a path. -/
def ofString (text : String) : Path :=
  let chars := text.toList
  let names := (chars.splitOn '/').map String.ofList
  ⟨rootOf (chars.takeWhile (· = '/')).length, names.filter isStep⟩

/-- The shortest text of a path. -/
def text (path : Path) : String :=
  if path.root.isEmpty && path.names.isEmpty then "."
  else path.root ++ "/".intercalate path.names

/-- The part of a name before its last dot. A dot at either end does not count. -/
def stemOf (name : List Char) : List Char :=
  let extension := (name.reverse.takeWhile (· ≠ '.')).length
  let dot := name.length - extension - 1
  if name.contains '.' && 0 < dot && 0 < extension then name.take dot else name

/-- The last name of a path without its extension. -/
def stem (path : Path) : String :=
  String.ofList (stemOf (path.names.getLastD "").toList)

end Path

end Script
