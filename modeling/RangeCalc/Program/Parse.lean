import RangeCalc.Expr
import RangeCalc.Token.Scan
import RangeCalc.Decimal.Read

/-!
# Parsing

A program is parsed from its tokens with one token of lookahead, by the grammar

* program: statements, one after the other;
* statement: `var` name `=` sum | `out` sum | `print` string;
* sum: products joined by `+` and `-`, grouped from the left;
* product: powers joined by `*` and `/`, grouped from the left;
* power: primary, or primary `^` power, so grouped from the right;
* primary: number | name | `-` name | `-` number | `-` `(` sum `)` | `(` sum `)` |
  `{` sum `,` sum `}` | `map` `(` sum `,` name `->` sum `)` |
  `reduce` `(` sum `,` sum `,` name name `->` sum `)`.

A minus sign before a number is part of the number. Every sum, and every power behind a `^`, opens a
level, and no more than `maxLevels` may be open at once. That bound makes the parser total: it
descends on the number of levels that may still be opened.

* `Program.parse` parses tokens, `Program.ofText` the tokens of a text.
-/

namespace RangeCalc

/-- Why a list of tokens is no program. -/
inductive ParseError
  /-- The tokens end where a token of this kind is needed. -/
  | endBefore (expected : Token.Kind)
  /-- Another token stands where one of this kind is needed. -/
  | mismatch (expected : Token.Kind) (found : Token)
  /-- No statement starts with this token. -/
  | noStatement (found : Token)
  /-- The tokens end where an expression has to start or go on. -/
  | endOfExpression
  /-- A character that belongs to no token stands in an expression. -/
  | strayCharacter (text : Text)
  /-- A token of this kind cannot start an expression; a minus cannot if nothing to negate follows. -/
  | strayToken (kind : Token.Kind)
  /-- Too many levels are open. -/
  | tooDeep
  /-- The text of a number token is no number. -/
  | unreadable (text : Text)
  deriving DecidableEq, Repr

/-- Where parsing stopped, and why. -/
structure ParseFailure where
  cause : ParseError
  /-- The tokens not yet consumed. -/
  rest : List Token
  deriving DecidableEq, Repr

/-- How many levels may be open at once. -/
def maxLevels : Nat := 64

/-- The wording of a syntax error. -/
def ParseError.message : ParseError → Text
  | endBefore expected => "Expected " ++ expected.describe ++ ", but reached end of input"
  | mismatch expected found =>
    "Expected " ++ expected.describe ++ " but found " ++
      (if found.kind = .error then "unexpected character '" ++ found.text ++ "'"
       else found.kind.describe)
  | noStatement found =>
    "Expected statement, found " ++ found.kind.describe ++ " \"" ++ found.text ++ "\"" ++
      (if found.kind = .ident ∧ found.text = ("val" : Text) then ". Did you mean \"var\"?" else "")
  | endOfExpression => "Unexpected end of expression"
  | strayCharacter text => "Unexpected character '" ++ text ++ "'"
  | strayToken kind => "Unexpected token " ++ kind.describe ++ " in expression"
  | tooDeep =>
    "Expression nested too deeply (more than " ++ Text.ofNat maxLevels ++ " levels)"
  | unreadable text => "Unreadable number " ++ text

namespace Parse

/-- A reader consumes tokens from the front of a list, or fails. -/
abbrev Reader (α : Type) := List Token → Except ParseFailure (α × List Token)

/-- Fails without consuming anything. -/
def stop (cause : ParseError) {α : Type} : Reader α := fun tokens => .error ⟨cause, tokens⟩

/-- Consumes a token of the given kind and gives its text. -/
def expect (kind : Token.Kind) : Reader Text
  | [] => .error ⟨.endBefore kind, []⟩
  | token :: rest =>
    if token.kind = kind then .ok (token.text, rest)
    else .error ⟨.mismatch kind token, token :: rest⟩

/-- The number of a number token. -/
def readNumber (text : Text) : Reader Float := fun tokens =>
  match Number.read? text with
  | some value => .ok (value, tokens)
  | none => .error ⟨.unreadable text, tokens⟩

/-- Goes on with a chain of operations whose first part is `left`, as long as one of the operators
follows; `fuel` bounds the number of operations. -/
def chainFrom (operand : Reader Expr) (isOperator : Token.Kind → Bool) : Nat → Expr → Reader Expr
  | fuel + 1, left, token :: tokens =>
    if isOperator token.kind then do
      let (right, tokens) ← operand tokens
      chainFrom operand isOperator fuel (.binary left token.text right) tokens
    else .ok (left, token :: tokens)
  | _, left, tokens => .ok (left, tokens)

/-- Operands joined by operators, grouped from the left. There are no more operations than tokens. -/
def chain (operand : Reader Expr) (isOperator : Token.Kind → Bool) : Reader Expr := fun tokens => do
  let (left, tokens) ← operand tokens
  chainFrom operand isOperator tokens.length left tokens

/-- The operators of a sum. -/
def isSumOperator (kind : Token.Kind) : Bool := kind == .plus || kind == .minus

/-- The operators of a product. -/
def isProductOperator (kind : Token.Kind) : Bool := kind == .star || kind == .slash

/-- A sum whose powers are read by `power`. -/
def sumOf (power : Reader Expr) : Reader Expr :=
  chain (chain power isProductOperator) isSumOperator

/-- A sum in parentheses. -/
def group (sum : Reader Expr) : Reader Expr := fun tokens => do
  let (_, tokens) ← expect .lpar tokens
  let (inner, tokens) ← sum tokens
  let (_, tokens) ← expect .rpar tokens
  return (inner, tokens)

/-- A range literal. -/
def rangeLiteral (sum : Reader Expr) : Reader Expr := fun tokens => do
  let (_, tokens) ← expect .lbrace tokens
  let (first, tokens) ← sum tokens
  let (_, tokens) ← expect .comma tokens
  let (last, tokens) ← sum tokens
  let (_, tokens) ← expect .rbrace tokens
  return (.range first last, tokens)

/-- A `map`. -/
def mapping (sum : Reader Expr) : Reader Expr := fun tokens => do
  let (_, tokens) ← expect .map tokens
  let (_, tokens) ← expect .lpar tokens
  let (source, tokens) ← sum tokens
  let (_, tokens) ← expect .comma tokens
  let (param, tokens) ← expect .ident tokens
  let (_, tokens) ← expect .arrow tokens
  let (body, tokens) ← sum tokens
  let (_, tokens) ← expect .rpar tokens
  return (.map source param body, tokens)

/-- A `reduce`. -/
def reduction (sum : Reader Expr) : Reader Expr := fun tokens => do
  let (_, tokens) ← expect .reduce tokens
  let (_, tokens) ← expect .lpar tokens
  let (source, tokens) ← sum tokens
  let (_, tokens) ← expect .comma tokens
  let (neutral, tokens) ← sum tokens
  let (_, tokens) ← expect .comma tokens
  let (param₁, tokens) ← expect .ident tokens
  let (param₂, tokens) ← expect .ident tokens
  let (_, tokens) ← expect .arrow tokens
  let (body, tokens) ← sum tokens
  let (_, tokens) ← expect .rpar tokens
  return (.reduce source neutral param₁ param₂ body, tokens)

/-- What a minus sign negates: a name, a group or a number, which takes up the sign. -/
def negated (sum : Reader Expr) : Reader Expr := fun tokens =>
  match tokens with
  | ⟨.ident, name, _⟩ :: rest => .ok (.negate (.ident name), rest)
  | ⟨.lpar, _, _⟩ :: _ => do
    let (inner, rest) ← group sum tokens
    return (.negate inner, rest)
  | ⟨.number, text, _⟩ :: rest => do
    let (value, rest) ← readNumber text rest
    return (.number (-value), rest)
  | _ => .error ⟨.strayToken .minus, tokens⟩

/-- A primary expression whose sums are read by `sum`. -/
def primary (sum : Reader Expr) : Reader Expr := fun tokens =>
  match tokens with
  | [] => .error ⟨.endOfExpression, []⟩
  | token :: rest =>
    match token.kind with
    | .minus => negated sum rest
    | .number => do
      let (value, rest) ← readNumber token.text rest
      return (.number value, rest)
    | .ident => .ok (.ident token.text, rest)
    | .lpar => group sum tokens
    | .lbrace => rangeLiteral sum tokens
    | .map => mapping sum tokens
    | .reduce => reduction sum tokens
    | .error => .error ⟨.strayCharacter token.text, tokens⟩
    | kind => .error ⟨.strayToken kind, tokens⟩

/-- A primary, and if `^` follows, the power behind it, read by `exponent`. -/
def powerOf (base exponent : Reader Expr) : Reader Expr := fun tokens => do
  let (left, tokens) ← base tokens
  match tokens with
  | ⟨.caret, op, _⟩ :: tokens =>
    let (right, tokens) ← exponent tokens
    return (.binary left op right, tokens)
  | tokens => return (left, tokens)

/-- A power, while `room` more levels may be opened. -/
def power : (room : Nat) → Reader Expr
  | 0 => powerOf (primary (stop .tooDeep)) (stop .tooDeep)
  | room + 1 => powerOf (primary (sumOf (power room))) (power room)

/-- A sum, while `room` more levels may be opened, its own included. -/
def sum : (room : Nat) → Reader Expr
  | 0 => stop .tooDeep
  | room + 1 => sumOf (power room)

/-- The text between the quotes of a string. -/
def unquoted (text : Text) : Text := (text.drop 1).dropLast

/-- A statement. -/
def statement : Reader Stmt := fun tokens =>
  match tokens with
  | [] => .error ⟨.endOfExpression, []⟩
  | token :: rest =>
    match token.kind with
    | .var => do
      let (name, rest) ← expect .ident rest
      let (_, rest) ← expect .assign rest
      let (value, rest) ← sum maxLevels rest
      return (.var name value, rest)
    | .out => do
      let (value, rest) ← sum maxLevels rest
      return (.out value, rest)
    | .print => do
      let (text, rest) ← expect .string rest
      return (.print (unquoted text), rest)
    | _ => .error ⟨.noStatement token, tokens⟩

/-- Statements up to the end of the tokens; `fuel` bounds their number. -/
def statements : (fuel : Nat) → List Token → Except ParseFailure Program
  | fuel + 1, token :: tokens => do
    let (first, tokens) ← statement (token :: tokens)
    let others ← statements fuel tokens
    return first :: others
  | _, _ => .ok []

end Parse

/-- The program that a list of tokens makes up. There are no more statements than tokens. -/
def Program.parse (tokens : List Token) : Except ParseFailure Program :=
  Parse.statements tokens.length tokens

/-- The program that a text makes up. -/
def Program.ofText (text : Text) : Except ParseFailure Program :=
  Program.parse (Token.scan text)

end RangeCalc
