import RangeCalc.Number
import RangeCalc.Text.Blank
import RangeCalc.Text.Digit

/-!
# Reading numbers

A decimal number is read in the notation in which numbers are printed and written in programs: an
optional sign, digits with at most one point among them, an optional exponent. Single underscores may
stand between digits, the digits may be those of any script, and blanks around the number do not
count. `inf`, `infinity` and `nan` are numbers too, in capital or small letters.

The value is the float nearest to the decimal, a tie going to the even significand.
-/

namespace RangeCalc.Number

/-- What continues a run of digits: digits, each with at most one underscore before it. The rest
follows. -/
def moreDigits : Text → Text × Text
  | [] => ([], [])
  | '_' :: d :: rest =>
    if isDigit d then
      let (more, left) := moreDigits rest
      (d :: more, left)
    else ([], '_' :: d :: rest)
  | c :: rest =>
    if isDigit c then
      let (more, left) := moreDigits rest
      (c :: more, left)
    else ([], c :: rest)

/-- The digits at the beginning of a text, where a single underscore may stand between two digits,
and the rest. -/
def takeDigits : Text → Text × Text
  | [] => ([], [])
  | c :: rest =>
    if isDigit c then
      let (more, left) := moreDigits rest
      (c :: more, left)
    else ([], c :: rest)

/-- The sign in front of a number: whether it is negative, and what follows. -/
def takeSign : Text → Bool × Text
  | '-' :: rest => (true, rest)
  | '+' :: rest => (false, rest)
  | rest => (false, rest)

/-- The exponent that ends a number, zero if there is none. -/
def readExponent? : Text → Option Int
  | [] => some 0
  | c :: rest =>
    if c = 'e' ∨ c = 'E' then
      let (negative, digits) := takeSign rest
      match takeDigits digits with
      | ([], _) => none
      | (ds, []) => some (if negative then -(readDigits ds : Int) else readDigits ds)
      | _ => none
    else none

/-- The float nearest to `m * 10 ^ e`. -/
def ofDecimal (m : Nat) : Int → Float
  | .ofNat e => .ofScientific m false e
  | .negSucc e => .ofScientific m true (e + 1)

/-- An unsigned decimal number. -/
def readMagnitude? (text : Text) : Option Float :=
  let (whole, rest) := takeDigits text
  let (fraction, rest) := match rest with
    | '.' :: rest => takeDigits rest
    | rest => ([], rest)
  if whole.isEmpty && fraction.isEmpty then none
  else (readExponent? rest).map fun e => ofDecimal (readDigits (whole ++ fraction)) (e - fraction.length)

/-- The number that a text denotes, if it denotes one. -/
def read? (text : Text) : Option Float :=
  let (negative, body) := takeSign text.trim
  let magnitude :=
    if body.lower = ("inf" : Text) ∨ body.lower = ("infinity" : Text) then some (1.0 / 0.0)
    else if body.lower = ("nan" : Text) then some (0.0 / 0.0)
    else readMagnitude? body
  magnitude.map fun x => if negative then -x else x

end RangeCalc.Number
