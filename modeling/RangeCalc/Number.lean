import RangeCalc.Text

/-!
# Numbers

The numbers of the language are double-precision floats. Ranges and sequences need to know which of
them are integers, and exactly which integer a float is: above `2 ^ 53` the two differ by more than
one between neighbours, so counting is done in `Int` and never in floats.

* `Number.toInt?` is the exact integer of an integer-valued float, and `none` of any other;
* `Number.ofInt` is the float nearest to an integer, a tie going to the even significand.
-/

namespace RangeCalc.Number

open Float.Model.UnpackedFloat

/-- The natural number `m * 2 ^ e`, if it is one. -/
def scaled? (m : Nat) : Int → Option Nat
  | .ofNat e => some (m * Nat.pow 2 e)
  | .negSucc e =>
    if m % Nat.pow 2 (e + 1) = 0 then some (m / Nat.pow 2 (e + 1)) else none

/-- The integer with the given sign and magnitude. -/
def signed : Sign → Nat → Int
  | .positive, n => n
  | .negative, n => -n

/-- The exact integer that a float is: `none` for a fraction, an infinity and what is no number. -/
def toInt? (x : Float) : Option Int :=
  match x.toModel.unpack with
  | .zero _ => some 0
  | .finite sign m e _ => (scaled? m e).map (signed sign)
  | .infinity _ => none
  | .notANumber => none

/-- Whether a float is integer-valued. -/
def isInteger (x : Float) : Bool := (toInt? x).isSome

/-- The float nearest to a natural number. Up to 64 bits the hardware converts. -/
def ofNat (n : Nat) : Float :=
  if n < UInt64.size then n.toUInt64.toFloat else .ofModel (Float.Model.ofNat n)

/-- The float nearest to an integer. -/
def ofInt : Int → Float
  | .ofNat n => ofNat n
  | .negSucc n => -ofNat (n + 1)

end RangeCalc.Number
