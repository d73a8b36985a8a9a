import RangeCalc.Text

/-!
# Tokens

A program is read as a list of tokens. A token has a kind, the characters it stands for and the
position of the first of them in the program. Gaps between tokens are no tokens.

* `Token.Kind.name` names a kind in the token listing;
* `Token.Kind.describe` names it in syntax errors.
-/

namespace RangeCalc

/-- The kinds of tokens. -/
inductive Token.Kind
  | var
  | out
  | print
  | map
  | reduce
  | arrow
  | assign
  | plus
  | minus
  | star
  | slash
  | caret
  | lpar
  | rpar
  | lbrace
  | rbrace
  | comma
  | number
  | ident
  | string
  /-- What separates tokens. It is passed over when a text is scanned. -/
  | whitespace
  /-- A single character that starts no token. -/
  | error
  deriving DecidableEq, Repr

/-- A token of a program. -/
structure Token where
  kind : Token.Kind
  text : Text
  /-- How many characters of the program come before it. -/
  pos : Nat
  deriving DecidableEq, Repr

namespace Token.Kind

/-- The name of a kind in the token listing. -/
def name : Kind → Text
  | var => "VAR"
  | out => "OUT"
  | print => "PRINT"
  | map => "MAP"
  | reduce => "REDUCE"
  | arrow => "ARROW"
  | assign => "ASSIGN"
  | plus => "PLUS"
  | minus => "MINUS"
  | star => "STAR"
  | slash => "SLASH"
  | caret => "CARET"
  | lpar => "LPAR"
  | rpar => "RPAR"
  | lbrace => "LBRACE"
  | rbrace => "RBRACE"
  | comma => "COMMA"
  | number => "NUMBER"
  | ident => "IDENT"
  | string => "STRING"
  | whitespace => "WHITESPACE"
  | error => "ERROR"

/-- The name of a kind in a syntax error. -/
def describe : Kind → Text
  | var => "<var>"
  | out => "<out>"
  | print => "<print>"
  | map => "<map>"
  | reduce => "<reduce>"
  | arrow => "\"->\""
  | assign => "\"=\""
  | plus => "\"+\""
  | minus => "\"-\""
  | star => "\"*\""
  | slash => "\"/\""
  | caret => "\"^\""
  | lpar => "\"(\""
  | rpar => "\")\""
  | lbrace => "\"\x7b\""
  | rbrace => "\"\x7d\""
  | comma => "\",\""
  | number => "number"
  | ident => "identifier"
  | string => "string_literal"
  | whitespace => "whitespace"
  | error => "ERROR"

end Token.Kind

end RangeCalc
