import RangeCalc.Token.Scan
import RangeCalc.Text.Quoted

/-!
# Token listings

The tokens of a program, one a line, each with its kind, its text in quotes and its position.
-/

namespace RangeCalc.Token

/-- A token in a listing. -/
def listing (token : Token) : Text :=
  "Tok(" ++ token.kind.name ++ ", " ++ token.text.quoted ++ ", " ++ Text.ofNat token.pos ++ ")"

/-- The listing of a program. -/
def listingOf (text : Text) : Text := (scan text).flatMap fun token => token.listing ++ ['\n']

end RangeCalc.Token
