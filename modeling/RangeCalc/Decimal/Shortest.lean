import RangeCalc.Text

/-!
# The shortest decimal of a binary number

A positive binary number `m * 2 ^ e` of a format with `p` bits is read back from every decimal in the
interval of the reals that round to it. This module finds the decimal with the fewest digits in that
interval, and of two such the one nearer to the number, a tie going to the even digit.

Everything is exact: the number and the ends of its interval are quotients of naturals over one
denominator, and a decimal with `n` digits is tested by multiplying out. Only the two neighbours of
the number on each decimal grid are tested, because if any point of a grid lies in the interval then
so does one of those two.

* `Decimal.Interval.ofBinary` is the interval of a double;
* `Decimal.Interval.shortest` is its shortest decimal.
-/

namespace RangeCalc

/-- The decimal `digits * 10 ^ exponent`. -/
structure Decimal where
  /-- The significant digits, as a number. -/
  digits : Nat
  /-- The power of ten by which they count. -/
  exponent : Int
  deriving DecidableEq, Repr

namespace Decimal

/-- A positive number and the reals that round to it, as quotients over `den`. -/
structure Interval where
  /-- The number itself. -/
  value : Nat
  /-- The lower end. -/
  low : Nat
  /-- The upper end. -/
  high : Nat
  /-- The denominator of all three. -/
  den : Nat
  /-- Whether the ends belong to the interval: so it is for an even significand. -/
  closed : Bool

namespace Interval

/-- The numbers of this many bits have an implicit leading bit. -/
def leadingBit : Nat := Nat.pow 2 52

/-- The least exponent of a double. -/
def leastExponent : Int := -1074

/-- The interval of the double `m * 2 ^ e`. The neighbour below a power of two is only half as far
away, except where the exponents end. Quarter units keep the ends whole. -/
def ofBinary (m : Nat) (e : Int) : Interval :=
  let below := if m = leadingBit ∧ leastExponent < e then 1 else 2
  let (factor, den) := match e - 2 with
    | .ofNat k => (Nat.pow 2 k, 1)
    | .negSucc k => (1, Nat.pow 2 (k + 1))
  { value := 4 * m * factor
    low := (4 * m - below) * factor
    high := (4 * m + 2) * factor
    den := den
    closed := m % 2 = 0 }

/-- How many decimal digits a natural number has. -/
def digitCount (n : Nat) : Nat := (Nat.toDigits 10 n).length

/-- The exponent `k` with `10 ^ k ≤ value / den < 10 ^ (k + 1)`. -/
def magnitude (i : Interval) : Int :=
  if i.den ≤ i.value then (digitCount (i.value / i.den) : Int) - 1
  else
    let count := digitCount (i.den / i.value)
    if i.value * Nat.pow 10 (count - 1) = i.den then 1 - (count : Int) else -(count : Int)

/-- The numerator and the denominator of `10 ^ k`. -/
def power : Int → Nat × Nat
  | .ofNat k => (Nat.pow 10 k, 1)
  | .negSucc k => (1, Nat.pow 10 (k + 1))

/-- Whether the decimal lies in the interval. -/
def contains (i : Interval) (d : Decimal) : Bool :=
  let (up, down) := power d.exponent
  let point := d.digits * up * i.den
  if i.closed then i.low * down ≤ point && point ≤ i.high * down
  else i.low * down < point && point < i.high * down

/-- The grid point at or below the number, with steps of `10 ^ k`. -/
def floorOn (i : Interval) (k : Int) : Decimal :=
  let (up, down) := power k
  ⟨i.value * down / (i.den * up), k⟩

/-- Whether the point after `d` is to be preferred to `d`: it is nearer to the number, or as near and
even. -/
def prefersNext (i : Interval) (d : Decimal) : Bool :=
  let (up, down) := power d.exponent
  let twice := 2 * i.value * down
  let middle := (2 * d.digits + 1) * up * i.den
  middle < twice || (middle == twice && d.digits % 2 == 1)

/-- The better of the number's two neighbours with steps of `10 ^ k`, if one lies in the interval. -/
def onGrid (i : Interval) (k : Int) : Option Decimal :=
  let d := i.floorOn k
  let next : Decimal := ⟨d.digits + 1, k⟩
  match i.contains d, i.contains next with
  | true, true => some (if i.prefersNext d then next else d)
  | true, false => some d
  | false, true => some next
  | false, false => none

/-- The first hit on the grids with `n`, `n + 1`, … digits, `tries` of them. -/
def search (i : Interval) (n : Nat) : Nat → Option Decimal
  | 0 => none
  | tries + 1 =>
    match i.onGrid (i.magnitude - n + 1) with
    | some d => some d
    | none => search i (n + 1) tries

/-- The shortest decimal of the interval. Seventeen digits tell any two doubles apart. -/
def shortest (i : Interval) : Decimal :=
  (i.search 1 17).getD (i.floorOn (i.magnitude - 16))

end Interval

end Decimal

end RangeCalc
