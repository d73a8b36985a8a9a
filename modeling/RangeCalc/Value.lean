import RangeCalc.Expr.Render

/-!
# Values and faults

A value is a number or a sequence of numbers. Texts are values too, for uniformity: no expression
yields one, but every operation says what it does with them. A fault is the reason why an expression
has no value; `Fault.message` words it.
-/

namespace RangeCalc

/-- A value. -/
inductive Value
  | number (value : Float)
  | string (text : Text)
  | sequence (elements : List Float)
  deriving DecidableEq

/-- The kind of a value. -/
inductive Value.Kind
  | number
  | string
  | sequence
  deriving DecidableEq

namespace Value

/-- The kind of a value. -/
def kind : Value → Kind
  | number _ => .number
  | string _ => .string
  | sequence _ => .sequence

/-- The name of a kind. -/
def Kind.name : Kind → Text
  | number => "number"
  | string => "string"
  | sequence => "sequence"

/-- A value as `out` prints it. -/
def text : Value → Text
  | number value => Number.text value
  | string text => text
  | sequence elements => '[' :: Text.joinWith ", " (elements.map Number.text) ++ [']']

/-- The negative of a number, of every element of a sequence; a text gets a minus sign in front. -/
def negate : Value → Value
  | number value => number (-value)
  | sequence elements => sequence (elements.map (- ·))
  | string text => string ('-' :: text)

end Value

/-- The two combinators. -/
inductive Combinator
  | map
  | reduce
  deriving DecidableEq

/-- The name of a combinator. -/
def Combinator.name : Combinator → Text
  | map => "map"
  | reduce => "reduce"

/-- Why an expression has no value. -/
inductive Fault
  /-- The name has no value. -/
  | undefined (name : Text)
  /-- An operator met something else than two numbers. -/
  | operandKinds (op : Text) (left right : Value.Kind)
  /-- There is no such operator. -/
  | unknownOperator (op : Text)
  /-- A bound of a range is no number. -/
  | boundKinds (first last : Value.Kind)
  /-- A bound of a range is no integer. -/
  | fractionalBound (first last : Float)
  /-- A range ends before it starts. -/
  | reversedBounds (first last : Float) (start stop : Int)
  /-- A combinator was given no sequence. -/
  | noSequence (combinator : Combinator) (kind : Value.Kind)
  /-- The neutral element is no number. -/
  | neutralKind (kind : Value.Kind)
  /-- A lambda returned something else than a number. -/
  | lambdaKind (body : Expr) (result : Value)
  /-- A lambda of `map` returned a number that is no integer. -/
  | lambdaFraction (body : Expr) (result : Float)
  deriving DecidableEq

/-- The wording of a fault. -/
def Fault.message : Fault → Text
  | undefined name => "Variable " ++ name ++ " not found"
  | operandKinds op left right =>
    "Operator \"" ++ op ++ "\" expects numbers, got " ++ left.name ++ " and " ++ right.name
  | unknownOperator op => "Unknown operator " ++ op
  | boundKinds first last =>
    "Sequence bounds must be numbers, got " ++ first.name ++ " and " ++ last.name
  | fractionalBound first last =>
    "Sequence \x7b" ++ Number.text first ++ ", " ++ Number.text last ++
      "\x7d has non-integer bound(s)"
  | reversedBounds _ _ start stop =>
    "Sequence \x7b" ++ Text.ofInt start ++ ", " ++ Text.ofInt stop ++
      "\x7d has end bound < start bound"
  | noSequence combinator kind => combinator.name ++ " expects a sequence, got " ++ kind.name
  | neutralKind kind => "reduce neutral element must be a number, got " ++ kind.name
  | lambdaKind body result =>
    "Lambda " ++ body.render ++ " returned non-number value '" ++ result.text ++ "'"
  | lambdaFraction body result =>
    "Lambda " ++ body.render ++ " returned non-integer element '" ++ Number.text result ++
      "'; sequences hold integers only"

end RangeCalc
