import RangeCalc.Expr
import RangeCalc.Decimal.Layout

/-!
# The outline of a program

The structure of a program is a tree. Its expressions and statements are nodes, labelled by what they
are, and their names, operators, numbers and texts are words at the leaves.

The outline shows the tree, one node a line, each level indented by two more spaces. If all that a
node has below it is a single word, the word follows on the same line behind a tab, and otherwise its
parts follow on the lines below.

* `Program.tree` is the tree of a program;
* `OutlineTree.layout` shows a tree;
* `Program.outline` shows the tree of a program.
-/

namespace RangeCalc

/-- A tree with words at its leaves. -/
inductive OutlineTree
  /-- A word of some kind. -/
  | word (kind text : Text)
  /-- A node with a label. -/
  | node (label : Text) (children : List OutlineTree)

namespace OutlineTree

/-- A line at the given level. -/
def line (level : Nat) (text : Text) : Text := List.replicate (2 * level) ' ' ++ text ++ ['\n']

/-- The word below a node, if that is all there is below it. -/
def onlyWord? : List OutlineTree → Option Text
  | [word _ text] => some text
  | _ => none

mutual

/-- Shows a tree. -/
def layout (level : Nat) : OutlineTree → Text
  | word _ text => line level text
  | node label children =>
    match onlyWord? children with
    | some text => line level (label ++ '\t' :: text)
    | none => line level label ++ layoutAll (level + 1) children

/-- Shows trees, one below the other. -/
def layoutAll (level : Nat) : List OutlineTree → Text
  | [] => []
  | tree :: trees => tree.layout level ++ layoutAll level trees

end

end OutlineTree

open OutlineTree (word node)

/-- The tree of an expression. -/
def Expr.tree : Expr → OutlineTree
  | number value => node "number" [word "NUMBER" (Number.plainText value)]
  | ident name => node "ident" [word "IDENT" name]
  | negate operand => node "neg" [operand.tree]
  | binary left op right => node "binop" [left.tree, word "OP" op, right.tree]
  | range first last => node "sequence" [first.tree, last.tree]
  | map source param body => node "map" [source.tree, word "IDENT" param, body.tree]
  | reduce source neutral param₁ param₂ body =>
    node "reduce" [source.tree, neutral.tree, word "IDENT" param₁, word "IDENT" param₂, body.tree]

/-- The tree of a statement. -/
def Stmt.tree : Stmt → OutlineTree
  | var name value => node "var" [word "IDENT" name, value.tree]
  | out value => node "out" [value.tree]
  | print text => node "print" [word "STRING" text]

/-- The tree of a program. -/
def Program.tree (program : Program) : OutlineTree := node "program" (program.map Stmt.tree)

/-- The outline of a program. -/
def Program.outline (program : Program) : Text := program.tree.layout 0

end RangeCalc
