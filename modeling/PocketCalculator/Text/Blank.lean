import PocketCalculator.Text.Basic

/-!
# Blank characters

The white space of Unicode (the property `White_Space`): what may stand between the tokens of an
expression and the keys of a script, and what trimming removes.
-/

namespace PocketCalculator

/-- The ranges of the property `White_Space`. -/
def blankRanges : CharRanges :=
  [(0x9, 0xd), (0x20, 0x20), (0x85, 0x85), (0xa0, 0xa0), (0x1680, 0x1680), (0x2000, 0x200a),
   (0x2028, 0x2029), (0x202f, 0x202f), (0x205f, 0x205f), (0x3000, 0x3000)]

/-- Whether a character is white space. -/
def isBlank (c : Char) : Bool :=
  blankRanges.holds c

/-- A text without the blank characters at its two ends. -/
def trim (t : Text) : Text :=
  ((t.dropWhile isBlank).reverse.dropWhile isBlank).reverse

end PocketCalculator
