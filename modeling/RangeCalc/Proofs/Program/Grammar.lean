import RangeCalc.Program.Parse

/-!
# The grammar

What the tokens of a program have to be, told without a parser: `Expr.Derives phrase height tokens
e` says that the tokens make up a phrase of an expression and that the phrase denotes `e`. Names,
operators and numbers are taken from the texts of the tokens.

Every sum opens a level, and so does the power behind a `^`. The height of a phrase is the number of
levels that are open at once inside it, at most; a statement is well formed only if its expression
has no more than `maxLevels` of them.

* `Program.Derives`: the tokens make up a program.
-/

namespace RangeCalc

/-- The phrases of an expression, from the one that binds least to the one that binds most. -/
inductive Phrase
  | sum
  | product
  | power
  | primary

/-- The tokens make up a phrase of the given height, which denotes the expression. -/
inductive Expr.Derives : Phrase → Nat → List Token → Expr → Prop
  | sum {height tokens e} (only : Derives .product height tokens e) :
      Derives .sum (height + 1) tokens e
  | add {height₁ height₂ tokens₁ tokens₂ left right} {op : Token}
      (first : Derives .sum height₁ tokens₁ left) (sign : op.kind = .plus ∨ op.kind = .minus)
      (last : Derives .product height₂ tokens₂ right) :
      Derives .sum (max height₁ (height₂ + 1)) (tokens₁ ++ op :: tokens₂)
        (.binary left op.text right)
  | product {height tokens e} (only : Derives .power height tokens e) :
      Derives .product height tokens e
  | multiply {height₁ height₂ tokens₁ tokens₂ left right} {op : Token}
      (first : Derives .product height₁ tokens₁ left) (sign : op.kind = .star ∨ op.kind = .slash)
      (last : Derives .power height₂ tokens₂ right) :
      Derives .product (max height₁ height₂) (tokens₁ ++ op :: tokens₂) (.binary left op.text right)
  | power {height tokens e} (only : Derives .primary height tokens e) :
      Derives .power height tokens e
  | raise {height₁ height₂ tokens₁ tokens₂ left right} {op : Token}
      (base : Derives .primary height₁ tokens₁ left) (sign : op.kind = .caret)
      (exponent : Derives .power height₂ tokens₂ right) :
      Derives .power (max height₁ (height₂ + 1)) (tokens₁ ++ op :: tokens₂)
        (.binary left op.text right)
  | number {number : Token} {value} (kind : number.kind = .number)
      (value_eq : Number.read? number.text = some value) :
      Derives .primary 0 [number] (.number value)
  | ident {name : Token} (kind : name.kind = .ident) : Derives .primary 0 [name] (.ident name.text)
  | negateIdent {minus name : Token} (sign : minus.kind = .minus) (kind : name.kind = .ident) :
      Derives .primary 0 [minus, name] (.negate (.ident name.text))
  -- A minus sign before a number is part of the number.
  | negateNumber {minus number : Token} {value} (sign : minus.kind = .minus)
      (kind : number.kind = .number) (value_eq : Number.read? number.text = some value) :
      Derives .primary 0 [minus, number] (.number (-value))
  | negateGroup {minus lpar rpar : Token} {height tokens e} (sign : minus.kind = .minus)
      (opening : lpar.kind = .lpar) (inner : Derives .sum height tokens e)
      (closing : rpar.kind = .rpar) :
      Derives .primary height (minus :: lpar :: (tokens ++ [rpar])) (.negate e)
  | group {lpar rpar : Token} {height tokens e} (opening : lpar.kind = .lpar)
      (inner : Derives .sum height tokens e) (closing : rpar.kind = .rpar) :
      Derives .primary height (lpar :: (tokens ++ [rpar])) e
  | range {lbrace comma rbrace : Token} {height₁ height₂ tokens₁ tokens₂ first last}
      (opening : lbrace.kind = .lbrace) (lower : Derives .sum height₁ tokens₁ first)
      (between : comma.kind = .comma) (upper : Derives .sum height₂ tokens₂ last)
      (closing : rbrace.kind = .rbrace) :
      Derives .primary (max height₁ height₂) (lbrace :: (tokens₁ ++ comma :: (tokens₂ ++ [rbrace])))
        (.range first last)
  | map {map lpar comma param arrow rpar : Token} {height₁ height₂ tokens₁ tokens₂ source body}
      (keyword : map.kind = .map) (opening : lpar.kind = .lpar)
      (argument : Derives .sum height₁ tokens₁ source) (between : comma.kind = .comma)
      (name : param.kind = .ident) (points : arrow.kind = .arrow)
      (lambda : Derives .sum height₂ tokens₂ body) (closing : rpar.kind = .rpar) :
      Derives .primary (max height₁ height₂)
        (map :: lpar :: (tokens₁ ++ comma :: param :: arrow :: (tokens₂ ++ [rpar])))
        (.map source param.text body)
  | reduce {reduce lpar comma₁ comma₂ param₁ param₂ arrow rpar : Token}
      {height₁ height₂ height₃ tokens₁ tokens₂ tokens₃ source neutral body}
      (keyword : reduce.kind = .reduce) (opening : lpar.kind = .lpar)
      (argument : Derives .sum height₁ tokens₁ source) (between₁ : comma₁.kind = .comma)
      (start : Derives .sum height₂ tokens₂ neutral) (between₂ : comma₂.kind = .comma)
      (name₁ : param₁.kind = .ident) (name₂ : param₂.kind = .ident) (points : arrow.kind = .arrow)
      (lambda : Derives .sum height₃ tokens₃ body) (closing : rpar.kind = .rpar) :
      Derives .primary (max height₁ (max height₂ height₃))
        (reduce :: lpar :: (tokens₁ ++ comma₁ :: (tokens₂ ++
          comma₂ :: param₁ :: param₂ :: arrow :: (tokens₃ ++ [rpar]))))
        (.reduce source neutral param₁.text param₂.text body)

/-- The tokens make up a statement. -/
inductive Stmt.Derives : List Token → Stmt → Prop
  | var {var name assign : Token} {height tokens value} (keyword : var.kind = .var)
      (kind : name.kind = .ident) (sign : assign.kind = .assign)
      (bound : height ≤ maxLevels) (expr : Expr.Derives .sum height tokens value) :
      Derives (var :: name :: assign :: tokens) (.var name.text value)
  | out {out : Token} {height tokens value} (keyword : out.kind = .out)
      (bound : height ≤ maxLevels) (expr : Expr.Derives .sum height tokens value) :
      Derives (out :: tokens) (.out value)
  | print {print string : Token} {text : Text} (keyword : print.kind = .print)
      (kind : string.kind = .string) (quoted : string.text = '"' :: (text ++ ['"'])) :
      Derives [print, string] (.print text)

/-- A statement has at least one token, so there are no more statements than tokens. -/
theorem Stmt.Derives.length_pos {tokens : List Token} {stmt : Stmt} (h : Stmt.Derives tokens stmt) :
    0 < tokens.length := by
  cases h <;> exact Nat.succ_pos _

/-- The tokens make up a program. -/
inductive Program.Derives : List Token → Program → Prop
  | nil : Derives [] []
  | cons {tokens₁ tokens₂ stmt program} (first : Stmt.Derives tokens₁ stmt)
      (others : Derives tokens₂ program) : Derives (tokens₁ ++ tokens₂) (stmt :: program)

end RangeCalc
