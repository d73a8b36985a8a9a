import Mathlib
import RangeCalc.Proofs.Number.Integral

/-!
# Nearest floats

A finite float is a rational, and the order of floats is that of the rationals they are, since
significands and exponents are unique. The floats around an integer beyond `2 ^ 53` are the
multiples of a power of two, and the other floats are smaller, so rounding the integer to such a
multiple leaves the nearest float of all. From this alone it follows that rounding keeps the order
and changes no integer that is a float.

* `Number.rational?`: the exact rational that a float is;
* `Number.le_iff`, `Number.beq_iff`: floats are compared as the rationals that they are;
* `Number.isNearest_ofInt`: the float of an integer is the nearest one, and of two it is the even;
* `Number.IsNearest.le`: the nearest floats to integers are in the order of the integers.
-/

namespace RangeCalc.Number

open Float.Model (Format UnpackedFloat)
open Float.Model.UnpackedFloat

/-! ## Floats as rationals -/

/-- The exact rational that a float is: `none` for an infinity and what is no number. -/
def rational? (x : Float) : Option ℚ :=
  match x.toModel.unpack with
  | .zero _ => some 0
  | .finite sign m e _ => some ((signed sign m : ℚ) * 2 ^ e)
  | .infinity _ => none
  | .notANumber => none

variable {x y : Float} {v w : ℚ} {m m' : Nat} {e e' : Int}

/-- What a float that is a rational consists of. -/
theorem rational?_cases (h : rational? x = some v) :
    (∃ sign, x.toModel.unpack = .zero sign ∧ v = 0) ∨
      ∃ sign m e pos, x.toModel.unpack = .finite sign m e pos ∧ Fits m e ∧
        v = (signed sign m : ℚ) * 2 ^ e := by
  rw [rational?] at h
  cases unpacked : x.toModel.unpack with
  | zero sign =>
    rw [unpacked] at h
    cases h
    exact .inl ⟨sign, rfl, rfl⟩
  | finite sign m e pos =>
    rw [unpacked] at h
    cases h
    exact .inr ⟨sign, m, e, pos, rfl, fits_of_unpack unpacked, rfl⟩
  | infinity sign =>
    rw [unpacked] at h
    cases h
  | notANumber =>
    rw [unpacked] at h
    cases h

theorem signed_neg (sign : Sign) (n : Nat) : signed (-sign) n = -signed sign n := by
  cases sign with
  | positive => rfl
  | negative => exact (neg_neg _).symm

/-- The sign is a factor. -/
theorem cast_signed (sign : Sign) (n : Nat) : (signed sign n : ℚ) = signed sign 1 * n := by
  cases sign with
  | positive => exact (one_mul _).symm
  | negative => simp [signed]

/-- The sign does not change the magnitude. -/
theorem abs_signed_mul (sign : Sign) (m : Nat) (e : Int) :
    |(signed sign m : ℚ) * 2 ^ e| = m * 2 ^ e := by
  have unit : (0 : ℚ) < 2 ^ e := zpow_pos two_pos e
  cases sign with
  | positive => simp [signed, abs_mul]
  | negative => simp [signed, abs_mul]

theorem rational?_neg (x : Float) : rational? (-x) = (rational? x).map (-·) := by
  rw [rational?, unpack_neg, rational?]
  cases x.toModel.unpack with
  | zero sign => exact congrArg some neg_zero.symm
  | finite sign m e pos =>
    simp only [neg, signed_neg, Int.cast_neg, neg_mul, Option.map_some]
  | infinity sign => rfl
  | notANumber => rfl

/-- Scaling is exact. -/
theorem scaled?_eq_some_iff {n : Nat} : scaled? m e = some n ↔ (m : ℚ) * 2 ^ e = n := by
  cases e with
  | ofNat e =>
    rw [scaled?, Option.some_inj, ← Nat.cast_inj (R := ℚ)]
    simp
  | negSucc e =>
    have unit : (2 : ℚ) ^ (e + 1) ≠ 0 := by positivity
    have divided : (m : ℚ) * 2 ^ Int.negSucc e = n ↔ m = n * 2 ^ (e + 1) := by
      rw [zpow_negSucc, mul_inv_eq_iff_eq_mul₀ unit, ← Nat.cast_inj (R := ℚ)]
      push_cast
      rfl
    rw [divided, scaled?]
    change (if m % 2 ^ (e + 1) = 0 then some (m / 2 ^ (e + 1)) else none) = _ ↔ _
    split
    · rename_i divides
      rw [Option.some_inj]
      exact Nat.div_eq_iff_eq_mul_left (Nat.two_pow_pos _) (Nat.dvd_of_mod_eq_zero divides)
    · rename_i remainder
      simp only [reduceCtorEq, false_iff]
      rintro rfl
      exact remainder (Nat.mul_mod_left _ _)

/-- A float is an integer if its exact rational is. -/
theorem toInt?_eq_some_iff {i : Int} : toInt? x = some i ↔ rational? x = some (i : ℚ) := by
  rw [toInt?, rational?]
  cases x.toModel.unpack with
  | zero sign => simp [eq_comm]
  | finite sign m e pos =>
    simp only [Option.map_eq_some_iff, scaled?_eq_some_iff, Option.some_inj]
    constructor
    · rintro ⟨n, exact, rfl⟩
      cases sign <;> simp [signed, exact]
    · intro exact
      have magnitude : (m : ℚ) * 2 ^ e = i.natAbs := by
        rw [Nat.cast_natAbs, Int.cast_abs, ← exact, abs_signed_mul]
      have same : (signed sign i.natAbs : ℚ) = i := by
        rw [← exact, cast_signed sign m, mul_assoc, magnitude, cast_signed]
      exact ⟨i.natAbs, magnitude, mod_cast same⟩
  | infinity sign => simp
  | notANumber => simp

/-! ## The order of floats -/

/-- Finite floats with a larger exponent are larger. -/
theorem Fits.mul_lt_mul (h : Fits m e) (h' : Fits m' e') (lt : e < e') :
    (m : ℚ) * 2 ^ e < m' * 2 ^ e' := by
  have least : -1074 ≤ e := by
    cases h with
    | normal low high least most => exact least
    | subnormal high least => omega
  have low : 2 ^ 52 ≤ m' := by
    cases h' with
    | normal low high least most => exact low
    | subnormal high least => omega
  have high : (m : ℚ) < 2 ^ 53 := mod_cast h.lt
  calc (m : ℚ) * 2 ^ e
    _ < 2 ^ 53 * 2 ^ e := mul_lt_mul_of_pos_right high (zpow_pos two_pos e)
    _ = 2 ^ 52 * 2 ^ (e + 1) := by rw [zpow_add_one₀ two_ne_zero]; ring
    _ ≤ 2 ^ 52 * 2 ^ e' := by
      gcongr
      · exact one_le_two
      · exact lt
    _ ≤ m' * 2 ^ e' := by
      gcongr
      exact_mod_cast low

/-- The exponents are compared first, and only then the significands. -/
theorem Fits.compare_eq (h : Fits m e) (h' : Fits m' e') :
    (compare e e').then (compare m m') = compare ((m : ℚ) * 2 ^ e) (m' * 2 ^ e') := by
  rcases lt_trichotomy e e' with lt | rfl | gt
  · rw [compare_lt_iff_lt.2 lt, compare_lt_iff_lt.2 (h.mul_lt_mul h' lt)]
    rfl
  · have unit : (0 : ℚ) < 2 ^ e := zpow_pos two_pos e
    have significands : compare m m' = compare (m : ℚ) m' := by
      rw [← cmp_eq_compare, ← cmp_eq_compare]
      exact (Nat.strictMono_cast.cmp_map_eq m m').symm
    rw [compare_eq_iff_eq.2 rfl, ← cmp_eq_compare ((m : ℚ) * _), cmp_mul_pos_right unit,
      cmp_eq_compare, ← significands]
    rfl
  · rw [compare_gt_iff_gt.2 gt, compare_gt_iff_gt.2 (h'.mul_lt_mul h gt)]
    rfl

/-- The sign decides on which side of zero a float is. -/
theorem signed_mul_lt (pos : 0 < m) : (signed .negative m : ℚ) * 2 ^ e < 0 := by
  have unit : (0 : ℚ) < 2 ^ e := zpow_pos two_pos e
  have magnitude : (0 : ℚ) < m := mod_cast pos
  simp only [signed, Int.cast_neg, Int.cast_natCast]
  nlinarith

theorem lt_signed_mul (pos : 0 < m) : 0 < (signed .positive m : ℚ) * 2 ^ e :=
  mul_pos (Int.cast_pos.2 (Int.natCast_pos.2 pos)) (zpow_pos two_pos e)

/-- Floats are compared as the rationals that they are. -/
theorem compare_eq (hx : rational? x = some v) (hy : rational? y = some w) :
    x.toModel.unpack.compare y.toModel.unpack = some (compare v w) := by
  obtain ⟨sign, first, rfl⟩ | ⟨sign, m, e, pos, first, fits, rfl⟩ := rational?_cases hx
  · obtain ⟨sign', second, rfl⟩ | ⟨sign', m', e', pos', second, -, rfl⟩ := rational?_cases hy
    · rw [first, second, compare_eq_iff_eq.2 rfl]
      rfl
    · rw [first, second]
      cases sign' with
      | positive =>
        rw [compare_lt_iff_lt.2 (lt_signed_mul pos')]
        rfl
      | negative =>
        rw [compare_gt_iff_gt.2 (signed_mul_lt pos')]
        rfl
  · obtain ⟨sign', second, rfl⟩ | ⟨sign', m', e', pos', second, fits', rfl⟩ := rational?_cases hy
    · rw [first, second]
      cases sign with
      | positive =>
        rw [compare_gt_iff_gt.2 (lt_signed_mul pos)]
        rfl
      | negative =>
        rw [compare_lt_iff_lt.2 (signed_mul_lt pos)]
        rfl
    · rw [first, second]
      cases sign with
      | positive =>
        cases sign' with
        | positive => exact congrArg some (fits.compare_eq fits')
        | negative =>
          rw [compare_gt_iff_gt.2 ((signed_mul_lt pos').trans (lt_signed_mul pos))]
          rfl
      | negative =>
        cases sign' with
        | positive =>
          rw [compare_lt_iff_lt.2 ((signed_mul_lt pos).trans (lt_signed_mul pos'))]
          rfl
        | negative =>
          -- Of two negative floats the one with the larger magnitude is smaller.
          simp only [UnpackedFloat.compare, fits.compare_eq fits', signed, Int.cast_neg,
            Int.cast_natCast, neg_mul, Option.some_inj]
          rw [← cmp_eq_compare, ← cmp_eq_compare, cmp_swap, neg_eq_neg_one_mul,
            neg_eq_neg_one_mul (_ * _), cmp_mul_neg_left neg_one_lt_zero]

/-- Floats are ordered as the rationals that they are. -/
theorem le_iff (hx : rational? x = some v) (hy : rational? y = some w) : x ≤ y ↔ v ≤ w := by
  have compared : x ≤ y ↔ x.toModel.unpack.le y.toModel.unpack = true := decide_eq_true_iff
  rw [compared, UnpackedFloat.le, compare_eq hx hy, Option.any_some,
    ← Ordering.ne_gt_iff_isLE]
  exact compare_le_iff_le

/-- Floats are equal if the rationals that they are are equal. Zero has two signs. -/
theorem beq_iff (hx : rational? x = some v) (hy : rational? y = some w) :
    (x == y) = true ↔ v = w := by
  have compared : (x == y) = x.toModel.unpack.beq y.toModel.unpack := rfl
  rw [compared, UnpackedFloat.beq, compare_eq hx hy, beq_iff_eq, Option.some_inj,
    compare_eq_iff_eq]

/-! ## The nearest float -/

/-- Whether the significand of a float is even, as that of zero is. -/
def EvenSignificand (x : Float) : Prop :=
  match x.toModel.unpack with
  | .zero _ => True
  | .finite _ m _ _ => m % 2 = 0
  | .infinity _ => False
  | .notANumber => False

/-- No finite float is nearer to the integer, and one that is as near on its other side has lost the
tie to an even significand. -/
def IsNearest (i : Int) (x : Float) : Prop :=
  ∃ v, rational? x = some v ∧ ∀ y w, rational? y = some w →
    |v - i| ≤ |w - i| ∧ (|v - i| = |w - i| → v = w ∨ EvenSignificand x)

variable {i j : Int}

/-- An integer that is a float is the nearest float to itself. -/
theorem isNearest_of_exact (h : rational? x = some (i : ℚ)) : IsNearest i x := by
  refine ⟨i, h, fun y w _ => ?_⟩
  rw [sub_self, abs_zero]
  refine ⟨abs_nonneg _, fun tie => .inl ?_⟩
  exact (sub_eq_zero.1 (abs_eq_zero.1 tie.symm)).symm

/-- The nearest float to an integer that is a float is that integer. -/
theorem IsNearest.exact (h : IsNearest i x) (hy : rational? y = some (i : ℚ)) :
    rational? x = some (i : ℚ) := by
  obtain ⟨v, hv, nearest⟩ := h
  have none_between := (nearest y i hy).1
  rw [sub_self, abs_zero] at none_between
  rw [hv, sub_eq_zero.1 (abs_nonpos_iff.1 none_between)]

theorem evenSignificand_neg (h : EvenSignificand x) : EvenSignificand (-x) := by
  rw [EvenSignificand] at h
  rw [EvenSignificand, unpack_neg]
  cases unpacked : x.toModel.unpack with
  | zero sign => trivial
  | finite sign m e pos =>
    rw [unpacked] at h
    exact h
  | infinity sign =>
    rw [unpacked] at h
    exact h
  | notANumber =>
    rw [unpacked] at h
    exact h

/-- Rounding is symmetric about zero. -/
theorem IsNearest.neg (h : IsNearest i x) : IsNearest (-i) (-x) := by
  obtain ⟨v, hv, nearest⟩ := h
  refine ⟨-v, by rw [rational?_neg, hv]; rfl, fun y w hy => ?_⟩
  have mirrored (u : ℚ) : |u - ((-i : Int) : ℚ)| = |-u - i| := by
    rw [← abs_neg]
    congr 1
    push_cast
    ring
  have hw : rational? (-y) = some (-w) := by rw [rational?_neg, hy]; rfl
  rw [mirrored, mirrored, neg_neg]
  refine ⟨(nearest (-y) (-w) hw).1, fun tie => ?_⟩
  exact ((nearest (-y) (-w) hw).2 tie).imp (fun eq => neg_eq_iff_eq_neg.2 eq) evenSignificand_neg

/-- The nearest floats to two integers are in the order of the integers: the middle between the
floats is not below the smaller integer if the floats are, and not above the larger one. -/
theorem IsNearest.le (hx : IsNearest i x) (hy : IsNearest j y) (lt : i < j) : x ≤ y := by
  obtain ⟨v, hv, nearest⟩ := hx
  obtain ⟨w, hw, nearest'⟩ := hy
  rw [le_iff hv hw]
  by_contra gt
  have first := sq_le_sq.2 (nearest y w hw).1
  have second := sq_le_sq.2 (nearest' x v hv).1
  have apart : (i : ℚ) < j := mod_cast lt
  have below : w < v := not_le.1 gt
  have middle : v + w ≤ 2 * i := by nlinarith
  have middle' : 2 * j ≤ v + w := by nlinarith
  linarith

/-- A finite float is a multiple of a power of two, or it has fewer bits than there are before that
power. -/
theorem rational?_grid (h : rational? x = some v) (k : Nat) :
    (∃ c : Int, v = ((c * 2 ^ (k + 1) : Int) : ℚ)) ∨ |v| < 2 ^ 52 * 2 ^ (k + 1) := by
  obtain ⟨sign, -, rfl⟩ | ⟨sign, m, e, pos, -, fits, rfl⟩ := rational?_cases h
  · exact .inl ⟨0, by simp⟩
  · rcases lt_or_ge e (k + 1) with lt | ge
    · refine .inr ?_
      have high : (m : ℚ) < 2 ^ 53 := mod_cast fits.lt
      rw [abs_signed_mul]
      calc (m : ℚ) * 2 ^ e
        _ < 2 ^ 53 * 2 ^ e := mul_lt_mul_of_pos_right high (zpow_pos two_pos e)
        _ ≤ 2 ^ 53 * 2 ^ (k : Int) := by
          gcongr
          · exact one_le_two
          · exact Int.lt_add_one_iff.1 lt
        _ = 2 ^ 52 * 2 ^ (k + 1) := by rw [zpow_natCast, pow_succ 2 k]; ring
    · obtain ⟨d, exponent⟩ := Int.le.dest ge
      refine .inl ⟨signed sign m * 2 ^ d, ?_⟩
      rw [← exponent]
      push_cast
      rw [zpow_add₀ two_ne_zero, zpow_natCast, mul_assoc, mul_comm (2 ^ d : ℚ)]
      norm_cast

/-- A multiple of a unit is nothing, the unit itself, or at least a unit away from both. -/
theorem multiple_cases (d : Int) (u : Nat) :
    d ≤ -1 ∧ d * u ≤ -u ∨ d = 0 ∧ d * u = 0 ∨ d = 1 ∧ d * u = u ∨ 2 ≤ d ∧ 2 * (u : Int) ≤ d * u := by
  rcases (by omega : d ≤ -1 ∨ d = 0 ∨ d = 1 ∨ 2 ≤ d) with less | rfl | rfl | more
  · exact .inl ⟨less, by nlinarith⟩
  · exact .inr (.inl ⟨rfl, zero_mul _⟩)
  · exact .inr (.inr (.inl ⟨rfl, one_mul _⟩))
  · exact .inr (.inr (.inr ⟨more, by nlinarith⟩))

/-- Of the multiples of a power of two, the rounded one is nearest. -/
theorem rounded_nearest (n k : Nat) (c : Int) :
    (rounded n (k + 1) * 2 ^ (k + 1) - n : Int).natAbs ≤ (c * 2 ^ (k + 1) - n).natAbs ∧
      ((rounded n (k + 1) * 2 ^ (k + 1) - n : Int).natAbs = (c * 2 ^ (k + 1) - n).natAbs →
        (rounded n (k + 1) : Int) = c ∨ rounded n (k + 1) % 2 = 0) := by
  obtain ⟨nearer, even⟩ := rounded_cases n k
  have parts := Nat.div_add_mod' n (2 ^ (k + 1))
  have rest_lt := Nat.mod_lt n (Nat.two_pow_pos (k + 1))
  have unit : (2 : Int) ^ (k + 1) = ((2 ^ (k + 1) : Nat) : Int) := by norm_cast
  rw [unit]
  clear unit
  generalize rounded n (k + 1) = r at *
  generalize n % 2 ^ (k + 1) = rest at *
  generalize n / 2 ^ (k + 1) = q at *
  generalize 2 ^ (k + 1) = u at *
  subst parts
  -- How many multiples there are from the one below the number to the given one.
  obtain ⟨d, rfl⟩ : ∃ d : Int, c = q + d := ⟨c - q, by omega⟩
  have steps := multiple_cases d u
  have distance : ((q + d) * u - (q * u + rest : Nat) : Int) = d * u - rest := by
    push_cast
    ring
  rw [distance]
  generalize d * (u : Int) = t at *
  rcases nearer with ⟨rfl, half⟩ | ⟨rfl, half⟩
  · have rounded_distance : (r * u - (r * u + rest : Nat) : Int) = -rest := by
      push_cast
      ring
    rw [rounded_distance]
    omega
  · have rounded_distance : ((q + 1 : Nat) * u - (q * u + rest : Nat) : Int) = u - rest := by
      push_cast
      ring
    rw [rounded_distance]
    omega

/-- No float is nearer to a number of many bits than the rounded multiple. -/
theorem rounded_nearest_float {n k : Nat} (many : 2 ^ 52 * 2 ^ (k + 1) ≤ n)
    (hy : rational? y = some w) :
    |((rounded n (k + 1) * 2 ^ (k + 1) : Int) : ℚ) - (n : Int)| ≤ |w - (n : Int)| ∧
      (|((rounded n (k + 1) * 2 ^ (k + 1) : Int) : ℚ) - (n : Int)| = |w - (n : Int)| →
        ((rounded n (k + 1) * 2 ^ (k + 1) : Int) : ℚ) = w ∨ rounded n (k + 1) % 2 = 0) := by
  have distance (c : Int) : |((c * 2 ^ (k + 1) : Int) : ℚ) - (n : Int)| =
      ((c * 2 ^ (k + 1) - n : Int).natAbs : ℚ) := by
    rw [Nat.cast_natAbs, Int.cast_abs, Int.cast_sub]
  obtain ⟨c, rfl⟩ | small := rational?_grid hy k
  · obtain ⟨nearest, tie⟩ := rounded_nearest n k c
    rw [distance, distance, Nat.cast_le, Nat.cast_inj]
    refine ⟨nearest, fun eq => (tie eq).imp (fun same => ?_) id⟩
    rw [same]
  · -- A float of fewer bits is below a multiple that is not above the number.
    have multiple : (2 : ℚ) ^ 52 * 2 ^ (k + 1) ≤ (n : Int) := mod_cast many
    have nearer : |((rounded n (k + 1) * 2 ^ (k + 1) : Int) : ℚ) - (n : Int)| < |w - (n : Int)| :=
      calc |((rounded n (k + 1) * 2 ^ (k + 1) : Int) : ℚ) - (n : Int)|
        _ ≤ |((2 ^ 52 * 2 ^ (k + 1) : Int) : ℚ) - (n : Int)| := by
          rw [distance, distance, Nat.cast_le]
          exact (rounded_nearest n k (2 ^ 52)).1
        _ = (n : Int) - 2 ^ 52 * 2 ^ (k + 1) := by
          rw [Int.cast_mul, Int.cast_pow, Int.cast_pow, Int.cast_ofNat, abs_sub_comm,
            abs_of_nonneg (sub_nonneg.2 multiple)]
        _ < (n : Int) - w := by linarith [(abs_lt.1 small).2]
        _ ≤ |w - (n : Int)| := by
          rw [abs_sub_comm]
          exact le_abs_self _
    exact ⟨nearer.le, fun tie => absurd tie nearer.ne⟩

/-- The float of a natural number, up to the largest float, is the nearest one. -/
theorem isNearest_ofNat {n : Nat} (le : n ≤ largest) : IsNearest n (ofNat n) := by
  rcases Nat.eq_zero_or_pos n with rfl | pos
  · exact isNearest_of_exact (toInt?_eq_some_iff.1 rfl)
  rw [ofNat_eq_round pos]
  by_cases lt : n < 2 ^ 53
  · obtain ⟨m, e, pos, finite, fits, scaled⟩ := exists_round_of_lt pos lt .positive
    refine isNearest_of_exact ?_
    rw [finite, ← toInt?_eq_some_iff, toInt?_pack fits, scaled]
    rfl
  · obtain ⟨k, many, m, e, pos, finite, fits, scaled, even⟩ :=
      exists_round_of_le (Nat.le_of_not_lt lt) le .positive
    rw [finite]
    refine ⟨(rounded n (k + 1) * 2 ^ (k + 1) : Int), ?_, fun y w hy => ?_⟩
    · rw [← toInt?_eq_some_iff, toInt?_pack fits, scaled, Option.map_some]
      simp only [signed]
      push_cast
      rfl
    · obtain ⟨nearest, tie⟩ := rounded_nearest_float many hy
      refine ⟨nearest, fun eq => (tie eq).imp id fun rounded_even => ?_⟩
      have unpacked : (Float.Model.pack (.finite .positive m e pos)).unpack =
          .finite .positive m e pos := unpack_pack fits .positive pos
      rw [EvenSignificand, unpacked]
      exact even rounded_even

/-- The float of an integer that is not above the largest float is the nearest one. -/
theorem isNearest_ofInt (le : i.natAbs ≤ largest) : IsNearest i (ofInt i) := by
  cases i with
  | ofNat n => exact isNearest_ofNat le
  | negSucc n => exact (isNearest_ofNat le).neg

end RangeCalc.Number
