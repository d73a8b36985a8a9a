import RangeCalc.Number
import RangeCalc.Decimal.Shortest

/-!
# Numbers as text

A number is printed by the fewest digits that read back as the same number. From `0.0001` up to but
not including `10 ^ 16` it is written positionally, with at least one digit on either side of the
point; beyond, with an exponent that has a sign and at least two digits.

* `Number.text` is that form;
* `Number.plainText` is the form for listings of programs: an integer in full without a point, any
  other number as `Number.text` gives it.
-/

namespace RangeCalc.Decimal

/-- How the digits and the exponent of a decimal are laid out. -/
structure Layout where
  /-- The least exponent of the first digit that is written positionally. -/
  least : Int
  /-- The first exponent beyond that is not. -/
  bound : Int
  /-- How many digits an exponent has at least. -/
  exponentWidth : Nat

/-- Positional from `0.0001` to below `10 ^ 16`, else an exponent of two digits or more. -/
def Layout.standard : Layout := ⟨-4, 16, 2⟩

/-- The digits of a decimal without the zeros at their end. -/
def significant (d : Decimal) : Text :=
  ((Text.ofNat d.digits).reverse.dropWhile (· == '0')).reverse

/-- The exponent of the first digit. -/
def leading (d : Decimal) : Int :=
  d.exponent + ((Text.ofNat d.digits).length : Int) - 1

/-- The digits with a point after the first `places` of them, filled with zeros where they end. -/
def pointed (digits : Text) (places : Nat) : Text :=
  let whole := digits.take places ++ List.replicate (places - digits.length) '0'
  let fraction := digits.drop places
  whole ++ '.' :: (if fraction.isEmpty then ['0'] else fraction)

/-- The exponent mark, with sign and least width. -/
def Layout.exponentText (layout : Layout) (e : Int) : Text :=
  let digits := Text.ofNat e.natAbs
  'e' :: (if e < 0 then '-' else '+') ::
    List.replicate (layout.exponentWidth - digits.length) '0' ++ digits

/-- A positive decimal in the given layout. -/
def Layout.text (layout : Layout) (d : Decimal) : Text :=
  let digits := d.significant
  let e := d.leading
  if layout.least ≤ e ∧ e < layout.bound then
    match e with
    | .ofNat k => pointed digits (k + 1)
    | .negSucc k => '0' :: '.' :: List.replicate k '0' ++ digits
  else
    let head := digits.take 1
    let tail := digits.drop 1
    head ++ (if tail.isEmpty then [] else '.' :: tail) ++ layout.exponentText e

end RangeCalc.Decimal

namespace RangeCalc.Number

open Float.Model.UnpackedFloat

/-- The sign as a mark before the digits. -/
def signText : Sign → Text
  | .positive => []
  | .negative => ['-']

/-- The printed form of a number. -/
def text (x : Float) : Text :=
  match x.toModel.unpack with
  | .zero sign => signText sign ++ "0.0"
  | .finite sign m e _ =>
    signText sign ++ Decimal.Layout.standard.text (Decimal.Interval.ofBinary m e).shortest
  | .infinity sign => signText sign ++ "inf"
  | .notANumber => "nan"

/-- The form of a number in a listing of a program. -/
def plainText (x : Float) : Text :=
  match toInt? x with
  | some n => Text.ofInt n
  | none => text x

end RangeCalc.Number
