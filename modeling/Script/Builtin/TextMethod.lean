import Script.Builtin.Method
import Script.Text.Blank
import Script.Text.CaseMap
import Script.Text.Numeral
import Script.Text.Utf8

/-!
# Methods of texts

Places and lengths count characters, except for `len`, which counts the bytes of the text.
-/

namespace Script.Builtin

open Action

/-- A text as a value. -/
def textValue (text : List Char) : Value :=
  .str (String.ofList text)

/-- Texts as a new list. -/
def newTextList (texts : List (List Char)) : Action Value :=
  newList (texts.map textValue).toArray

/-- Whether there are characters and all pass a test. -/
def allChars (test : Char → Bool) (text : List Char) : Bool :=
  !text.isEmpty && text.all test

/-- The word starts with an upper case character, and lower case changes nothing after it. -/
def isTitleWord (word : List Char) : Bool :=
  word.head?.any Text.isUpper && Text.lowerText word.tail == word.tail

/-- The first word is a title word, and every other is one or is in lower case. -/
def isTitleText (text : List Char) : Bool :=
  match Text.words text with
  | [] => false
  | first :: rest =>
    isTitleWord first && rest.all fun word => isTitleWord word || Text.lowerText word == word

/-- Without an argument blanks are trimmed, written escapes included; otherwise the characters of
the argument. -/
def textStrip (s : String) (chars : Value) : Action Value := do
  match chars with
  | .null => return textValue (Text.trimBy Text.isBlank (Text.expandEscapes s.toList))
  | _ =>
    let drop ← requireText "strip()" chars
    return textValue (Text.trimBy (fun c => drop.toList.contains c) s.toList)

/-- Without an argument the words of a text, written escapes counting as blanks; otherwise the
pieces between the occurrences of the argument. -/
def textSplit (s : String) (separator : Value) : Action Value := do
  match separator with
  | .null =>
    if s.isEmpty then newTextList [[]]
    else newTextList (Text.words (Text.expandEscapes s.toList))
  | _ =>
    let separator ← requireText "split()" separator
    if separator.isEmpty then raise .valueError "empty separator"
    newTextList (Text.split separator.toList s.toList)

/-- The texts of a list or tuple. -/
def joinTexts (place : Nat) : List Value → Action (List (List Char))
  | [] => return []
  | .str s :: rest => do return s.toList :: (← joinTexts (place + 1) rest)
  | value :: _ => do
    let name ← typeName value
    raise .typeError s!"sequence item {place}: expected str instance, {name} found"

/-- The texts of a list or tuple with this text between them. -/
def textJoin (s : String) (items : Value) : Action Value := do
  match items with
  | .list id => return textValue (Text.join s.toList (← joinTexts 0 ((← get).list id).toList))
  | .tuple _ items => return textValue (Text.join s.toList (← joinTexts 0 items))
  | _ =>
    let name ← typeName items
    raise .typeError s!"can only join a list or tuple, not {name}"

/-- The text with occurrences replaced, at most as many as a count that is not negative. -/
def textReplace (s : String) (old new count : Value) : Action Value := do
  let old ← requireText "replace()" old
  let new ← requireText "replace()" new
  let count ← requireInt "replace()" count
  let count ← requireSize count
  let times := if count < 0 then none else some count.toNat
  return textValue (Text.replace old.toList new.toList times s.toList)

/-- The texts of a tuple of texts. -/
def textsOf? : List Value → Option (List String)
  | [] => some []
  | .str s :: rest => (textsOf? rest).map (s :: ·)
  | _ => none

/-- Whether the argument, or one of a tuple of texts, passes a test. -/
def textAffix (owner : String) (test : List Char → Bool) (affix : Value) : Action Value := do
  let single : Action Value := do
    return .bool (test (← requireText owner affix).toList)
  match affix with
  | .tuple _ items =>
    match textsOf? items with
    | some texts => return .bool (texts.any fun text => test text.toList)
    | none => single
  | _ => single

/-- The methods of a text. -/
def textMethod? (s : String) : String → Option Method
  | "len" => some (.nullary (return .int s.utf8ByteSize))
  | "upper" => some (.nullary (return textValue (Text.upperText s.toList)))
  | "lower" => some (.nullary (return textValue (Text.lowerText s.toList)))
  | "strip" => some (.optional (textStrip s))
  | "split" => some (.optional (textSplit s))
  | "join" => some (.unary (textJoin s))
  | "replace" => some
      ⟨2, 3, fun
        | [old, new] => textReplace s old new (.int (-1))
        | [old, new, count] => textReplace s old new count
        | _ => return .null⟩
  | "find" => some (.unary fun sub => do
      let sub ← requireText "find()" sub
      match Text.find? sub.toList s.toList with
      | some place => return .int place
      | none => return .int (-1))
  | "count" => some (.unary fun sub => do
      let sub ← requireText "count()" sub
      return .int (Text.count sub.toList s.toList))
  | "startswith" => some (.unary
      (textAffix "startswith()" fun affix => affix.isPrefixOf s.toList))
  | "endswith" => some (.unary
      (textAffix "endswith()" fun affix => affix.isSuffixOf s.toList))
  | "isalnum" => some (.nullary (return .bool (allChars Text.isAlphanumeric s.toList)))
  | "isalpha" => some (.nullary (return .bool (allChars Text.isLetter s.toList)))
  | "isdigit" => some (.nullary (return .bool (allChars Text.isDigit s.toList)))
  | "islower" => some (.nullary (return .bool (Text.isLowerText s.toList)))
  | "isupper" => some (.nullary (return .bool (Text.isUpperText s.toList)))
  | "isspace" => some (.nullary
      (return .bool (allChars Text.isBlank (Text.expandEscapes s.toList))))
  | "istitle" => some (.nullary (return .bool (isTitleText s.toList)))
  | _ => none

end Script.Builtin
