import Script.Text.Interval

/-!
# Blanks

White space: the separators of words, and what is trimmed from the ends of a text.
-/

namespace Script.Text

/-- The blanks, as ascending intervals of code points. -/
def blankIntervals : List Interval :=
  [(0x9, 0xd), (0x1c, 0x20), (0x85, 0x85), (0xa0, 0xa0), (0x1680, 0x1680), (0x2000, 0x200a),
   (0x2028, 0x2029), (0x202f, 0x202f), (0x205f, 0x205f), (0x3000, 0x3000)]

/-- White space, line breaks and the four information separators included. -/
def isBlank (c : Char) : Bool :=
  Interval.mem blankIntervals c.toNat

/-- White space without the four information separators: what may surround a number. -/
def isPadding (c : Char) : Bool :=
  isBlank c && !(0x1c ≤ c.toNat && c.toNat ≤ 0x1f)

/-- A text without the leading characters that satisfy a test. -/
def trimLeftBy (drop : Char → Bool) (text : List Char) : List Char :=
  text.dropWhile drop

/-- A text without the trailing characters that satisfy a test. -/
def trimRightBy (drop : Char → Bool) (text : List Char) : List Char :=
  (text.reverse.dropWhile drop).reverse

/-- A text without the characters at its ends that satisfy a test. -/
def trimBy (drop : Char → Bool) (text : List Char) : List Char :=
  trimRightBy drop (trimLeftBy drop text)

/-- The words of a text, the last one begun by `current`, which is given in reverse. -/
def wordsFrom (current : List Char) : List Char → List (List Char)
  | [] => if current.isEmpty then [] else [current.reverse]
  | c :: rest =>
    if isBlank c then
      if current.isEmpty then wordsFrom [] rest else current.reverse :: wordsFrom [] rest
    else wordsFrom (c :: current) rest

/-- The words of a text: its longest stretches without a blank. -/
def words (text : List Char) : List (List Char) :=
  wordsFrom [] text

end Script.Text
