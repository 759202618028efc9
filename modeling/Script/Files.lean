import Script.Path
import Script.Text.Utf8

/-!
# Files

A directory is gone through name by name, and a read that fails says what stopped it. A source
file is text in UTF-8, in which every kind of line break counts as one.
-/

namespace Script

/-- Why a file cannot be read. -/
inductive FileFault where
  | notFound
  | notADirectory
  | isADirectory
  | nameTooLong
  /-- Anything else that the system underneath reports. -/
  | other (number : Nat) (text : String)
  /-- No file can have this path. -/
  | impossiblePath
  deriving DecidableEq, Repr

/-- The number and the text of a fault, where the system underneath has them. -/
def FileFault.description? : FileFault → Option (Nat × String)
  | .notFound => some (2, "No such file or directory")
  | .notADirectory => some (20, "Not a directory")
  | .isADirectory => some (21, "Is a directory")
  | .nameTooLong => some (36, "File name too long")
  | .other number text => some (number, text)
  | .impossiblePath => none

/-- What a name in a directory stands for. -/
inductive FileEntry where
  | file (bytes : List UInt8)
  | directory

/-- A directory: its files and directories, also those below it, by the names that lead there. -/
structure Directory where
  entries : List (List String × FileEntry)

namespace Directory

/-- How many bytes a name may have. -/
def maxNameSize : Nat := 255

/-- How many bytes a path may have. -/
def maxPathSize : Nat := 4095

/-- What some names lead to. Whatever lies above an entry is a directory. -/
def entry? (directory : Directory) (names : List String) : Option FileEntry :=
  match directory.entries.find? fun pair => pair.1 = names with
  | some (_, entry) => some entry
  | none =>
    if names.isEmpty || directory.entries.any fun pair => names.isPrefixOf pair.1 then
      some .directory
    else none

/-- Where a walk through a directory has come to. -/
inductive Place where
  /-- Below the directory, by the names that lead there. -/
  | inside (names : List String)
  /-- In a directory above it, where nothing else is known. -/
  | above

/-- Follows one name. -/
def follow (directory : Directory) (place : Place) (name : String) :
    Except FileFault Place :=
  if maxNameSize < name.utf8ByteSize then .error .nameTooLong
  else
    match place, name with
    | .above, ".." => .ok .above
    | .above, _ => .error .notFound
    | .inside [], ".." => .ok .above
    | .inside names, ".." => .ok (.inside names.dropLast)
    | .inside names, _ =>
      match directory.entry? (names ++ [name]) with
      | some _ => .ok (.inside (names ++ [name]))
      | none => .error .notFound

/-- What is at a place. -/
def entryAt (directory : Directory) : Place → FileEntry
  | .inside names => (directory.entry? names).getD .directory
  | .above => .directory

/-- Follows names one after the other; only directories lead on. -/
def walk (directory : Directory) (place : Place) : List String → Except FileFault FileEntry
  | [] => .ok (directory.entryAt place)
  | name :: rest =>
    match directory.entryAt place with
    | .file _ => .error .notADirectory
    | .directory => do walk directory (← directory.follow place name) rest

/-- The bytes of the file at a path. -/
def read (directory : Directory) (text : String) : Except FileFault (List UInt8) :=
  let path := Path.ofString text
  if text.toList.contains '\x00' then .error .impossiblePath
  else if maxPathSize < path.text.utf8ByteSize then .error .nameTooLong
  else
    let start := if path.root.isEmpty then Place.inside [] else Place.above
    match directory.walk start path.names with
    | .ok (.file bytes) => .ok bytes
    | .ok .directory => .error .isADirectory
    | .error fault => .error fault

end Directory

namespace Text

/-- A text in which a carriage return, with or without a line feed after it, is a line feed. -/
def unifyBreaks : List Char → List Char
  | '\r' :: '\n' :: rest => '\n' :: unifyBreaks rest
  | '\r' :: rest => '\n' :: unifyBreaks rest
  | c :: rest => c :: unifyBreaks rest
  | [] => []

/-- The source in the bytes of a file. -/
def sourceOf (bytes : List UInt8) : Except Utf8.DecodeError String :=
  match Utf8.decode bytes with
  | .ok text => .ok (String.ofList (unifyBreaks text))
  | .error error => .error error

end Text

end Script
