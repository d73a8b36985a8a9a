import RangeCalc.Expr
import RangeCalc.Decimal.Layout

/-!
# Expressions as text

An expression is written back as a program would write it, with parentheses around every operand that
is itself a binary operation. Messages and listings show expressions in this form.
-/

namespace RangeCalc.Expr

/-- A text in parentheses. -/
def parenthesised (text : Text) : Text := '(' :: text ++ [')']

/-- Whether an expression is a binary operation. -/
def isBinary : Expr → Bool
  | binary .. => true
  | _ => false

/-- Whether an expression is a name. -/
def isIdent : Expr → Bool
  | ident _ => true
  | _ => false

/-- The text of an expression. -/
def render : Expr → Text
  | number value => Number.plainText value
  | ident name => name
  | negate operand =>
    '-' :: (if operand.isIdent then operand.render else parenthesised operand.render)
  | binary left op right =>
    (if left.isBinary then parenthesised left.render else left.render) ++ " " ++ op ++ " " ++
      (if right.isBinary then parenthesised right.render else right.render)
  | range first last => "\x7b" ++ first.render ++ ", " ++ last.render ++ "\x7d"
  | map source param body =>
    "map(" ++ source.render ++ ", " ++ param ++ " -> " ++ body.render ++ ")"
  | reduce source neutral param₁ param₂ body =>
    "reduce(" ++ source.render ++ ", " ++ neutral.render ++ ", " ++ param₁ ++ " " ++ param₂ ++
      " -> " ++ body.render ++ ")"

end RangeCalc.Expr
