import RangeCalc.Text.Printable

/-!
# Quoted text

The token listing and some messages show a text in quotes. Single quotes are used unless the text
holds a single quote and no double quote. The backslash, the quote in use, line feed, carriage return
and tab are written with a backslash, and any other character that is not printable by its code
point, in two, four or eight hexadecimal digits.
-/

namespace RangeCalc.Text

/-- A number in lower-case hexadecimal digits, filled with zeros up to `width`. -/
def hexadecimal (width n : Nat) : Text :=
  let digits := Nat.toDigits 16 n
  List.replicate (width - digits.length) '0' ++ digits

/-- The written form of one character between quotes of the kind `quote`. -/
def quoteChar (quote c : Char) : Text :=
  if c = quote ∨ c = '\\' then ['\\', c]
  else if c = '\n' then ['\\', 'n']
  else if c = '\r' then ['\\', 'r']
  else if c = '\t' then ['\\', 't']
  else if isPrintable c then [c]
  else if c.toNat < 0x100 then '\\' :: 'x' :: hexadecimal 2 c.toNat
  else if c.toNat < 0x10000 then '\\' :: 'u' :: hexadecimal 4 c.toNat
  else '\\' :: 'U' :: hexadecimal 8 c.toNat

/-- The quote that surrounds a text. -/
def quoteMark (text : Text) : Char :=
  if text.contains '\'' && !text.contains '"' then '"' else '\''

/-- A text in quotes. -/
def quoted (text : Text) : Text :=
  let quote := quoteMark text
  quote :: text.flatMap (quoteChar quote) ++ [quote]

end RangeCalc.Text
