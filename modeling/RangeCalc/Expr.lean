import RangeCalc.Text

/-!
# Programs

An expression is a number, a name, a negation, a binary operation, a range of integers, or one of the
two combinators: `map` applies a one-parameter lambda to every element of a sequence, `reduce`
combines the elements with a two-parameter lambda, starting from a neutral element. A program is a
list of statements, run in order.

* `Expr.isLeaf` tells the expressions whose evaluation takes no steps of its own;
* `Expr.isMerging` tells the bodies under which `reduce` may combine in any grouping.
-/

namespace RangeCalc

/-- An expression. The operator of a binary operation is kept as it is written. -/
inductive Expr
  | number (value : Float)
  | ident (name : Text)
  | negate (operand : Expr)
  | binary (left : Expr) (op : Text) (right : Expr)
  | range (first last : Expr)
  | map (source : Expr) (param : Text) (body : Expr)
  | reduce (source neutral : Expr) (param₁ param₂ : Text) (body : Expr)
  deriving DecidableEq

/-- A statement. -/
inductive Stmt
  /-- Gives a variable the value of an expression. -/
  | var (name : Text) (value : Expr)
  /-- Prints the value of an expression. -/
  | out (value : Expr)
  /-- Prints a text. -/
  | print (text : Text)
  deriving DecidableEq

/-- A program. -/
abbrev Program := List Stmt

namespace Expr

/-- Numbers and names are leaves. -/
def isLeaf : Expr → Bool
  | number _ => true
  | ident _ => true
  | _ => false

/-- Whether a `reduce` with these parameters and this body combines as a merge tree: the body is a
single operation whose operands are the two parameters, in either order, whatever the operator. -/
def isMerging (param₁ param₂ : Text) : Expr → Bool
  | binary (ident a) _ (ident b) => (a == param₁ && b == param₂) || (a == param₂ && b == param₁)
  | _ => false

end Expr

end RangeCalc
