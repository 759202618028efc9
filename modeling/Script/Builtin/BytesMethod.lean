import Script.Builtin.Method
import Script.Text.Utf8

/-!
# Methods of bytes, byte arrays and errors
-/

namespace Script.Builtin

open Action

/-- The text of some bytes; only UTF-8 is known. -/
def bytesDecode (bytes : List UInt8) (encoding : Value) : Action Value := do
  let encoding ← requireText "decode()" encoding
  checkEncoding encoding
  match Text.Utf8.decode bytes with
  | .ok text => return .str (String.ofList text)
  | .error error => raise .unicodeDecodeError error.message

/-- The methods of bytes. -/
def bytesMethod? (bytes : List UInt8) : String → Option Method
  | "len" => some (.nullary (return .int bytes.length))
  | "hex" => some (.nullary (return .str (String.ofList
      (bytes.flatMap fun byte => Text.hexDigits 2 byte.toNat))))
  | "decode" => some ⟨0, 1, fun items => bytesDecode bytes (items.headD (.str "utf-8"))⟩
  | _ => none

/-- Takes the last byte out of a byte array. -/
def bytearrayPop (id : ByteArrayId) : Action Value := do
  match ((← get).bytearray id).getLast? with
  | none => raise .indexError "pop from empty bytearray"
  | some byte =>
    setBytearray id List.dropLast
    return byteValue byte

/-- The methods of a byte array. -/
def bytearrayMethod? (id : ByteArrayId) (bytes : List UInt8) : String → Option Method
  | "append" => some (.unary fun value => do
      let byte ← requireByte value
      setBytearray id (· ++ [byte])
      return .null)
  | "pop" => some (.nullary (bytearrayPop id))
  | name => bytesMethod? bytes name

/-- Links an error to its cause, which also hides its context. -/
def errorWithCause (id : ErrorId) (cause : Value) : Action Value := do
  let cause ←
    match cause with
    | .null => pure none
    | .error cause => pure (some cause)
    | _ => raise .typeError "exception cause must be None or derive from BaseException"
  setError id fun error => { error with cause := cause, suppressContext := true }
  return .error id

/-- The methods of an error. -/
def errorMethod? (id : ErrorId) : String → Option Method
  | "add_note" => some (.unary fun note => do
      let note ← requireText "add_note()" note
      setList ((← get).error id).notes (·.push (.str note))
      return .null)
  | "with_cause" => some (.unary (errorWithCause id))
  | _ => none

/-- A link to another error as a value. -/
def linkValue : Option ErrorId → Value
  | some id => .error id
  | none => .null

/-- The attributes of an error that are not methods. -/
def errorAttribute? (id : ErrorId) (name : String) : Action (Option Value) := do
  let error := (← get).error id
  match name with
  | "kind" => return some (.str error.kind.name)
  | "args" => return some (← newTuple (error.arguments.map .str))
  | "message" => return some (.str error.message)
  | "notes" => return some (.list error.notes)
  | "cause" => return some (linkValue error.cause)
  | "context" => return some (linkValue error.context)
  | "suppress_context" => return some (.bool error.suppressContext)
  | _ => return none

end Script.Builtin
