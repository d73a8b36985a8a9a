import RangeCalc.Text

/-!
# Blank characters

The blanks are the characters that separate words in running text: the ASCII separators, the
no-break space and the spaces, line and paragraph separators of Unicode. Settings and prompt lines
are trimmed by them. (The separators *inside* a program are the four of `isGap`, no more.)
-/

namespace RangeCalc

/-- The blank characters. -/
def blankRanges : List (Nat × Nat) := [
  (0x9, 0xd), (0x1c, 0x20), (0x85, 0x85), (0xa0, 0xa0), (0x1680, 0x1680), (0x2000, 0x200a),
  (0x2028, 0x2029), (0x202f, 0x202f), (0x205f, 0x205f), (0x3000, 0x3000)]

/-- Whether a character is blank. -/
def isBlank (c : Char) : Bool := Text.inRanges blankRanges c.toNat

namespace Text

/-- The text without the blanks at its beginning and at its end. -/
def trim (text : Text) : Text :=
  ((text.dropWhile isBlank).reverse.dropWhile isBlank).reverse

/-- Whether a text has no character but blanks. -/
def isBlankText (text : Text) : Bool := text.all isBlank

/-- The first word of a text and what follows the blanks after it. -/
def firstWord (text : Text) : Text × Text :=
  let start := text.dropWhile isBlank
  (start.takeWhile (!isBlank ·), (start.dropWhile (!isBlank ·)).dropWhile isBlank)

end Text

end RangeCalc
