/-!
# Bits of integers

Integers as rows of bits without end on the left: a negative integer has ones there. `~n` flips
every bit and is `-n - 1`.
-/

namespace Script.Number

-- Powers are those of the core library, whatever other instances are in scope.
attribute [local instance (high)] instPowNat

/-- Every bit flipped. -/
def complement (n : Int) : Int :=
  -n - 1

/-- The bits of the first number that the second does not have. -/
def clearBits (m n : Nat) : Nat :=
  m ^^^ (m &&& n)

/-- The bits that both integers have. -/
def bitAnd : Int → Int → Int
  | .ofNat m, .ofNat n => .ofNat (m &&& n)
  | .ofNat m, .negSucc n => .ofNat (clearBits m n)
  | .negSucc m, .ofNat n => .ofNat (clearBits n m)
  | .negSucc m, .negSucc n => .negSucc (m ||| n)

/-- The bits that one of the integers has. -/
def bitOr : Int → Int → Int
  | .ofNat m, .ofNat n => .ofNat (m ||| n)
  | .ofNat m, .negSucc n => .negSucc (clearBits n m)
  | .negSucc m, .ofNat n => .negSucc (clearBits m n)
  | .negSucc m, .negSucc n => .negSucc (m &&& n)

/-- The bits that exactly one of the integers has. -/
def bitXor : Int → Int → Int
  | .ofNat m, .ofNat n => .ofNat (m ^^^ n)
  | .ofNat m, .negSucc n => .negSucc (m ^^^ n)
  | .negSucc m, .ofNat n => .negSucc (m ^^^ n)
  | .negSucc m, .negSucc n => .ofNat (m ^^^ n)

/-- The bits moved to the left, zeros filled in. -/
def shiftLeft (n : Int) (places : Nat) : Int :=
  n * 2 ^ places

/-- The bits moved to the right, those that fall off dropped. Beyond the length of the integer
only its sign is left. -/
def shiftRight (n : Int) (places : Nat) : Int :=
  if n.natAbs.log2 < places then (if n < 0 then -1 else 0) else n.fdiv (2 ^ places)

end Script.Number
