import RangeCalc.Value

/-!
# Operators and ranges

The binary operators work on numbers, by the rules of floating-point arithmetic: nothing overflows
into an error, and a division by zero gives an infinity or no number. A range holds the integers from
its first to its last bound. It is counted in exact integers, each of which is then rounded to the
nearest float, so neighbours may coincide above `2 ^ 53`.
-/

namespace RangeCalc

/-- The operation that an operator stands for, if it is one. -/
def arithmetic? (op : Text) : Option (Float → Float → Float) :=
  match op with
  | ['+'] => some (· + ·)
  | ['-'] => some (· - ·)
  | ['*'] => some (· * ·)
  | ['/'] => some (· / ·)
  | ['^'] => some Float.pow
  | _ => none

/-- Applies an operator to two values. That both are numbers is looked at first. -/
def applyOperator (op : Text) (left right : Value) : Except Fault Value :=
  match left, right with
  | .number a, .number b =>
    match arithmetic? op with
    | some operation => .ok (.number (operation a b))
    | none => .error (.unknownOperator op)
  | left, right => .error (.operandKinds op left.kind right.kind)

/-- The integers from `start` to `stop`, as floats. -/
def integersFrom (start stop : Int) : List Float :=
  (List.range (stop - start + 1).toNat).map fun (i : Nat) => Number.ofInt (start + i)

/-- The range between two bounds. -/
def rangeBetween (first last : Value) : Except Fault Value :=
  match first, last with
  | .number a, .number b =>
    match Number.toInt? a, Number.toInt? b with
    | some start, some stop =>
      if stop < start then .error (.reversedBounds a b start stop)
      else .ok (.sequence (integersFrom start stop))
    | _, _ => .error (.fractionalBound a b)
  | first, last => .error (.boundKinds first.kind last.kind)

end RangeCalc
