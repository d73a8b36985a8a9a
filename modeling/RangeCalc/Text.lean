/-!
# Text

Every part of the library that looks inside a text takes it as a list of characters, so that
positions count characters and a proof follows the list. String literals stand for the list of their
characters.

* `Text.lines` cuts a text at its line feeds and `Text.unlines` puts the lines together again;
* `Text.inRanges` decides membership in a table of code point ranges, the form in which the
  character classes of the modules below `Text` are kept.
-/

namespace RangeCalc

/-- A text is the list of its characters. -/
abbrev Text := List Char

/-- A literal stands for its characters. -/
instance : Coe String Text := ⟨String.toList⟩

namespace Text

/-- The lines of a text. Only a line feed ends a line, and a text without one is a single line. -/
def lines (text : Text) : List Text := List.splitOn '\n' text

/-- The given lines with a line feed between neighbours. -/
def unlines (lines : List Text) : Text := List.intercalate ['\n'] lines

/-- The given texts with `sep` between neighbours. -/
def joinWith (sep : Text) (parts : List Text) : Text := List.intercalate sep parts

/-- Whether a code point lies in one of the closed ranges of a table. -/
def inRanges (table : List (Nat × Nat)) (code : Nat) : Bool :=
  table.any fun (low, high) => low ≤ code && code ≤ high

/-- The text with every capital ASCII letter made small. -/
def lower (text : Text) : Text := text.map Char.toLower

/-- A natural number in decimal digits. -/
def ofNat (n : Nat) : Text := Nat.toDigits 10 n

/-- An integer in decimal digits, with a minus sign below zero. -/
def ofInt : Int → Text
  | .ofNat n => ofNat n
  | .negSucc n => '-' :: ofNat (n + 1)

end Text

end RangeCalc
