import Script.Text.Quoted

/-!
# UTF-8

Texts as bytes. `encode` writes each character in one to four bytes; `decode` reads exactly what
`encode` writes, and reports the first place at which the bytes go wrong.
-/

namespace Script.Text.Utf8

/-- Why bytes are not the bytes of a text. -/
inductive Reason where
  | invalidStart
  | invalidContinuation
  | unexpectedEnd
  deriving DecidableEq, Repr

/-- A reason in words. -/
def Reason.text : Reason → String
  | .invalidStart => "invalid start byte"
  | .invalidContinuation => "invalid continuation byte"
  | .unexpectedEnd => "unexpected end of data"

/-- The first bytes that are not part of a text: where they start, how many they are, and the
first of them. -/
structure DecodeError where
  start : Nat
  width : Nat
  byte : UInt8
  reason : Reason
  deriving DecidableEq, Repr

/-- The text of the message. -/
def DecodeError.message (error : DecodeError) : String :=
  if error.width = 1 then
    s!"'utf-8' codec can't decode byte 0x{String.ofList (hexDigits 2 error.byte.toNat)} in position {error.start}: {error.reason.text}"
  else
    s!"'utf-8' codec can't decode bytes in position {error.start}-{error.start + error.width - 1}: {error.reason.text}"

/-- A continuation byte with the given six bits. -/
def tail (bits : Nat) : UInt8 :=
  UInt8.ofNat (0x80 + bits % 64)

/-- The bytes of a character. -/
def encodeChar (c : Char) : List UInt8 :=
  let n := c.toNat
  if n < 0x80 then [UInt8.ofNat n]
  else if n < 0x800 then [UInt8.ofNat (0xC0 + n / 64), tail n]
  else if n < 0x10000 then [UInt8.ofNat (0xE0 + n / 4096), tail (n / 64), tail n]
  else [UInt8.ofNat (0xF0 + n / 262144), tail (n / 4096), tail (n / 64), tail n]

/-- The bytes of a text. -/
def encode (text : List Char) : List UInt8 :=
  text.flatMap encodeChar

/-- The byte continues a character. -/
def isTail (byte : UInt8) : Bool :=
  0x80 ≤ byte && byte < 0xC0

/-- How many bytes a first byte announces. -/
def announced (first : UInt8) : Option Nat :=
  if first < 0x80 then some 1
  else if first < 0xC2 then none
  else if first < 0xE0 then some 2
  else if first < 0xF0 then some 3
  else if first < 0xF5 then some 4
  else none

/-- The second byte may follow the first: it continues the character, and the two do not start a
form that is too long, a surrogate, or a number beyond the last character. -/
def secondFits (first second : UInt8) : Bool :=
  isTail second &&
    !(first == 0xE0 && second < 0xA0) && !(first == 0xED && 0xA0 ≤ second) &&
    !(first == 0xF0 && second < 0x90) && !(first == 0xF4 && 0x90 ≤ second)

/-- The six bits of a continuation byte. -/
def bits (byte : UInt8) : Nat :=
  byte.toNat % 64

/-- The first character of some bytes with the number of its bytes, or why there is none and how
many bytes are to blame. -/
def decodeFirst (first : UInt8) (rest : List UInt8) : Except (Reason × Nat) (Char × Nat) :=
  match announced first with
  | none => .error (.invalidStart, 1)
  | some 1 => .ok (Char.ofNat first.toNat, 1)
  | some width =>
    match rest with
    | [] => .error (.unexpectedEnd, 1)
    | second :: rest =>
      if !secondFits first second then .error (.invalidContinuation, 1)
      else if width = 2 then .ok (Char.ofNat (first.toNat % 32 * 64 + bits second), 2)
      else
        match rest with
        | [] => .error (.unexpectedEnd, 2)
        | third :: rest =>
          if !isTail third then .error (.invalidContinuation, 2)
          else if width = 3 then
            .ok (Char.ofNat (first.toNat % 16 * 4096 + bits second * 64 + bits third), 3)
          else
            match rest with
            | [] => .error (.unexpectedEnd, 3)
            | fourth :: _ =>
              if !isTail fourth then .error (.invalidContinuation, 3)
              else
                .ok (Char.ofNat (first.toNat % 8 * 262144 + bits second * 4096 +
                  bits third * 64 + bits fourth), 4)

/-- The text of the bytes from a place on, after the characters already read, which are given in
reverse. -/
def decodeFrom (done : List Char) (place : Nat) (bytes : List UInt8) :
    Except DecodeError (List Char) :=
  match bytes with
  | [] => .ok done.reverse
  | first :: rest =>
    match decodeFirst first rest with
    | .ok (c, width) => decodeFrom (c :: done) (place + width) (rest.drop (width - 1))
    | .error (reason, width) => .error ⟨place, width, first, reason⟩
termination_by bytes.length
decreasing_by simp +arith [List.length_drop]

/-- The text of some bytes. -/
def decode (bytes : List UInt8) : Except DecodeError (List Char) :=
  decodeFrom [] 0 bytes

end Script.Text.Utf8
