import Mathlib
import RangeCalc.Number

/-!
# Integer-valued floats

A finite float is a significand of at most 53 bits times a power of two. Taken apart and put
together again it is the same float, so changing its sign changes nothing else. An integer that
lies between two floats is within their range, and rounding it to 53 bits leaves an integer, since
what is rounded away are bits of the integer itself: what is left is the nearer one of the two
multiples of a power of two around it.

* `Number.Fits`: the significands and exponents of finite floats;
* `Number.unpack_pack`: a finite float survives being packed and unpacked;
* `Number.isInteger_neg`: the negative of an integer-valued float is integer-valued;
* `Number.rounded_cases`: the bits that are rounded away decide for the nearer multiple, and for
  the even one in a tie;
* `Number.isInteger_ofInt`: the float of an integer, up to the largest float, is integer-valued.
-/

namespace RangeCalc.Number

open Float.Model (Format UnpackedFloat totalExponent)
open Float.Model.UnpackedFloat

/-! ## Taking floats apart -/

/-- The significands and exponents of finite floats. -/
inductive Fits (m : Nat) (e : Int) : Prop
  | normal (low : 2 ^ 52 ≤ m) (high : m < 2 ^ 53) (least : -1074 ≤ e) (most : e ≤ 971)
  | subnormal (high : m < 2 ^ 52) (least : e = -1074)

variable {m : Nat} {e : Int}

theorem Fits.lt (h : Fits m e) : m < 2 ^ 53 := by
  cases h with
  | normal low high least most => exact high
  | subnormal high least => omega

theorem Fits.le (h : Fits m e) : e ≤ 971 := by
  cases h with
  | normal low high least most => exact most
  | subnormal high least => omega

theorem log2_of_normal (low : 2 ^ 52 ≤ m) (high : m < 2 ^ 53) : m.log2 = 52 :=
  (Nat.log2_eq_iff (by omega)).2 ⟨low, high⟩

/-- The significand behind its leading bit. -/
theorem toNat_one_append (fraction : BitVec 52) :
    (1#1 ++ fraction).toNat = 2 ^ 52 + fraction.toNat := by
  rw [BitVec.toNat_append]
  exact (Nat.two_pow_add_eq_or_of_lt fraction.isLt 1).symm

/-- What a float consists of fits. -/
theorem fits_of_unpack {bits : BitVec Format.binary64.numBits} {sign : Sign} {pos : 0 < m}
    (h : unpack .binary64 bits = .finite sign m e pos) : Fits m e := by
  have fraction := (unpackMantissa bits).isLt
  have exponent := (unpackExponent bits).isLt
  rw [unpack] at h
  split at h
  · split at h
    · cases h
    · cases h
  · rename_i not_ones
    have ne_ones : (unpackExponent bits).toNat ≠ 2047 := fun eq =>
      not_ones (BitVec.eq_of_toNat_eq eq)
    split at h
    · rename_i zero
      split at h
      · cases h
      · cases h
        refine .subnormal fraction ?_
        rw [zero]
        rfl
    · rename_i not_zero
      have ne_zero : (unpackExponent bits).toNat ≠ 0 := fun eq =>
        not_zero (BitVec.eq_of_toNat_eq eq)
      cases h
      rw [toNat_one_append]
      change (unpackMantissa bits).toNat < 2 ^ 52 at fraction
      change (unpackExponent bits).toNat < 2 ^ 11 at exponent
      refine .normal (by omega) (by omega) ?_ ?_
      · show (-1074 : Int) ≤ (unpackExponent bits).toNat - (1023 + 52)
        omega
      · show ((unpackExponent bits).toNat : Int) - (1023 + 52) ≤ 971
        omega

/-- A finite float survives being packed and unpacked. -/
theorem unpack_pack (h : Fits m e) (sign : Sign) (pos : 0 < m) :
    unpack .binary64 (pack .binary64 (.finite sign m e pos)) = .finite sign m e pos := by
  have parts (exponent : BitVec 11) (fraction : BitVec 52) :
      unpack .binary64 (packComponents .binary64 sign exponent fraction) =
        if exponent = -1#11 then
          if fraction = 0#52 then .infinity sign else .notANumber
        else if exponent = 0#11 then
          if h : fraction = 0#52 then .zero sign
          else .finite sign fraction.toNat ((exponent.toNat : Int) - (1023 + 52) + 1)
            (Nat.pos_of_ne_zero fun eq => h (BitVec.eq_of_toNat_eq eq))
        else .finite sign (1#1 ++ fraction).toNat ((exponent.toNat : Int) - (1023 + 52))
          (by rw [toNat_one_append]; omega) := by
    simp only [unpack, unpackMantissa_packComponents, unpackExponent_packComponents,
      unpackSign_packComponents, Sign.ofBitVec_toBitVec]
    rfl
  cases h with
  | normal low high least most =>
    have biased : (e + (1023 : Nat) + (52 : Nat)).toNat = (e + 1075).toNat := by omega
    have packed : pack .binary64 (.finite sign m e pos) =
        packComponents .binary64 sign (BitVec.ofNat 11 (e + 1075).toNat) (BitVec.ofNat 52 m) := by
      rw [← biased, pack]
      have log2 := log2_of_normal low high
      rw [if_neg, if_pos (by rw [log2]; rfl)]
      · rfl
      · show ¬2048 ≤ (e + (1023 : Nat) + (52 : Nat)).toNat + 1
        omega
    have exponent : (BitVec.ofNat 11 (e + 1075).toNat).toNat = (e + 1075).toNat := by
      rw [BitVec.toNat_ofNat]
      omega
    have significand : (1#1 ++ BitVec.ofNat 52 m).toNat = m := by
      rw [toNat_one_append, BitVec.toNat_ofNat]
      omega
    rw [packed, parts, if_neg, if_neg]
    · congr 1
      rw [exponent]
      omega
    · intro zero
      have := congrArg BitVec.toNat zero
      rw [exponent] at this
      change _ = 0 at this
      omega
    · intro ones
      have := congrArg BitVec.toNat ones
      rw [exponent] at this
      change _ = 2047 at this
      omega
  | subnormal high least =>
    subst least
    have packed : pack .binary64 (.finite sign m (-1074) pos) =
        packComponents .binary64 sign 0#11 (BitVec.ofNat 52 m) := by
      rw [pack]
      rw [if_neg (by decide), if_neg]
      intro eq
      have log2 : m.log2 < 52 := (Nat.log2_lt (by omega)).2 high
      change m.log2 + 1 = 53 at eq
      omega
    have significand : (BitVec.ofNat 52 m).toNat = m := by
      rw [BitVec.toNat_ofNat]
      omega
    have ne_zero : BitVec.ofNat 52 m ≠ 0#52 := by
      intro zero
      have := congrArg BitVec.toNat zero
      rw [significand] at this
      change m = 0 at this
      omega
    rw [packed, parts, if_neg (by decide), if_pos rfl, dif_neg ne_zero]
    congr 1

/-- The exact integer of a float that is put together from a significand and an exponent. -/
theorem toInt?_pack (h : Fits m e) (sign : Sign) (pos : 0 < m) :
    toInt? (.ofModel (Float.Model.pack (.finite sign m e pos))) =
      (scaled? m e).map (signed sign) := by
  have unpacked : (Float.Model.pack (.finite sign m e pos)).unpack = .finite sign m e pos :=
    unpack_pack h sign pos
  rw [toInt?, unpacked]

/-- The negative of a float is the float of the other sign. -/
theorem unpack_neg (x : Float) : (-x).toModel.unpack = x.toModel.unpack.neg := by
  have negated : (-x).toModel.unpack =
      unpack .binary64 (pack .binary64 x.toModel.unpack.neg) := rfl
  rw [negated]
  cases unpacked : x.toModel.unpack with
  | zero sign => exact unpack_packedZero
  | finite sign m e pos => exact unpack_pack (fits_of_unpack unpacked) (-sign) pos
  | infinity sign => cases sign <;> rfl
  | notANumber => exact unpack_packedNaN

/-- The negative of an integer-valued float is integer-valued. -/
theorem isInteger_neg {x : Float} (h : isInteger x = true) : isInteger (-x) = true := by
  rw [isInteger, toInt?] at h
  rw [isInteger, toInt?, unpack_neg]
  cases unpacked : x.toModel.unpack with
  | zero sign => rfl
  | finite sign m e pos =>
    rw [unpacked] at h
    have same : (scaled? m e).isSome = true := by simpa using h
    simp only [neg, Option.isSome_map, same]
  | infinity sign =>
    rw [unpacked] at h
    cases h
  | notANumber =>
    rw [unpacked] at h
    cases h

/-! ## Rounding integers -/

/-- The largest exponent of a finite float. Powers with it are never computed. -/
@[irreducible]
def topExponent : Nat := 971

theorem topExponent_eq : topExponent = 971 := by rw [topExponent]

/-- The largest finite float. -/
def largest : Nat := (2 ^ 53 - 1) * 2 ^ topExponent

/-- No float is above the largest one. -/
theorem natAbs_le_largest {x : Float} {i : Int} (h : toInt? x = some i) : i.natAbs ≤ largest := by
  have signed_natAbs (sign : Sign) (n : Nat) : (signed sign n).natAbs = n := by
    cases sign <;> simp [signed]
  rw [toInt?] at h
  cases unpacked : x.toModel.unpack with
  | zero sign =>
    rw [unpacked] at h
    cases h
    exact Nat.zero_le _
  | finite sign m e pos =>
    rw [unpacked] at h
    obtain ⟨n, scaled, rfl⟩ := Option.map_eq_some_iff.1 h
    have fits := fits_of_unpack unpacked
    have le : m ≤ 2 ^ 53 - 1 := Nat.le_sub_one_of_lt fits.lt
    rw [signed_natAbs]
    cases e with
    | ofNat e =>
      cases scaled
      have most : e ≤ topExponent := topExponent_eq ▸ Int.ofNat_le.1 fits.le
      exact Nat.mul_le_mul le (Nat.pow_le_pow_right (by decide) most)
    | negSucc e =>
      rw [scaled?] at scaled
      split at scaled
      · cases scaled
        calc m / Nat.pow 2 (e + 1)
          _ ≤ m := Nat.div_le_self _ _
          _ ≤ (2 ^ 53 - 1) * 1 := by omega
          _ ≤ largest := Nat.mul_le_mul_left _ (Nat.two_pow_pos topExponent)
      · cases scaled
  | infinity sign =>
    rw [unpacked] at h
    cases h
  | notANumber =>
    rw [unpacked] at h
    cases h

/-- A significand of 53 bits is at its target exponent. -/
theorem targetExponent_of_normal (low : 2 ^ 52 ≤ m) (high : m < 2 ^ 53) (least : -1074 ≤ e) :
    Format.binary64.targetExponent (totalExponent m e) = e := by
  simp only [Format.targetExponent, totalExponent, log2_of_normal low high, Format.mantissaBits,
    Format.minExponent]
  omega

/-- A significand of 53 bits is not shifted. -/
theorem shiftToTargetExponent_of_normal (low : 2 ^ 52 ≤ m) (high : m < 2 ^ 53)
    (least : -1074 ≤ e) :
    shiftToTargetExponent .binary64 m e .exact = (⟨m, false, false⟩, e) := by
  have amount : (e - e).toNat = 0 := by omega
  rw [shiftToTargetExponent]
  simp only [targetExponent_of_normal low high least, shiftToExponent, amount, Int.natCast_zero,
    Int.add_zero]
  rfl

/-- A significand of 54 bits is shifted by one. -/
theorem shiftToTargetExponent_two_pow (least : -1074 ≤ e) :
    shiftToTargetExponent .binary64 (2 ^ 53) e .exact = (⟨2 ^ 52, false, false⟩, e + 1) := by
  have target : Format.binary64.targetExponent (totalExponent (2 ^ 53) e) = e + 1 := by
    simp only [Format.targetExponent, totalExponent, Nat.log2_two_pow, Format.mantissaBits,
      Format.minExponent]
    omega
  have amount : (e + 1 - e).toNat = 1 := by omega
  rw [shiftToTargetExponent]
  simp only [target, shiftToExponent, amount, Int.natCast_one]
  rfl

/-- What is left of a significand after shifts, with the last bit that was shifted out, and with
whether any was set before it. -/
theorem shiftRight_eq (n k : Nat) : (⟨n, false, false⟩ : ExtendedMantissa) >>> (k + 1) =
    ⟨n / 2 ^ (k + 1), n / 2 ^ k % 2 != 0, n % 2 ^ k != 0⟩ := by
  have step (k : Nat) : (⟨n, false, false⟩ : ExtendedMantissa) >>> (k + 1) =
      ((⟨n, false, false⟩ : ExtendedMantissa) >>> k).shiftRightOne := rfl
  induction k with
  | zero =>
    have none : (⟨n, false, false⟩ : ExtendedMantissa) >>> 0 = ⟨n, false, false⟩ := rfl
    rw [step, none, ExtendedMantissa.shiftRightOne]
    simp [Nat.mod_one]
  | succ k ih =>
    have halves : n / 2 ^ (k + 1) / 2 = n / 2 ^ (k + 2) := by
      rw [Nat.div_div_eq_div_mul, ← Nat.pow_succ]
    have sticky : (n / 2 ^ k % 2 != 0 || n % 2 ^ k != 0) = (n % 2 ^ (k + 1) != 0) := by
      rw [Nat.mod_pow_succ, Bool.eq_iff_iff]
      simp only [Bool.or_eq_true, bne_iff_ne, ne_eq, Nat.add_eq_zero_iff, Nat.mul_eq_zero,
        Nat.pow_eq_zero]
      omega
    rw [step, ih, ExtendedMantissa.shiftRightOne]
    simp only [halves, sticky]

/-- A significand of which so many bits are rounded away. -/
def rounded (n count : Nat) : Nat :=
  ((⟨n, false, false⟩ : ExtendedMantissa) >>> count).roundedMantissa

/-- The bits that are rounded away decide: the last of them, and whether any was set before it. -/
theorem roundedMantissa_eq (kept : Nat) (last before : Bool) :
    (⟨kept, last, before⟩ : ExtendedMantissa).roundedMantissa =
      if last then if before then kept + 1 else kept + kept % 2 else kept := by
  cases last <;> cases before <;> rfl

/-- Rounding goes to the neighbour that is nearer, and to the even one if both are as near. -/
theorem rounded_cases (n k : Nat) :
    (rounded n (k + 1) = n / 2 ^ (k + 1) ∧ 2 * (n % 2 ^ (k + 1)) ≤ 2 ^ (k + 1) ∨
      rounded n (k + 1) = n / 2 ^ (k + 1) + 1 ∧ 2 ^ (k + 1) ≤ 2 * (n % 2 ^ (k + 1))) ∧
      (2 * (n % 2 ^ (k + 1)) = 2 ^ (k + 1) → rounded n (k + 1) % 2 = 0) := by
  have unit : 2 ^ (k + 1) = 2 * 2 ^ k := by rw [Nat.pow_succ, Nat.mul_comm]
  have away : n % 2 ^ (k + 1) = n % 2 ^ k + 2 ^ k * (n / 2 ^ k % 2) := Nat.mod_pow_succ
  have below : n % 2 ^ k < 2 ^ k := Nat.mod_lt _ (Nat.two_pow_pos k)
  have last_cases := Nat.mod_two_eq_zero_or_one (n / 2 ^ k)
  rw [rounded, shiftRight_eq, roundedMantissa_eq, away, unit]
  clear away unit
  generalize n / (2 * 2 ^ k) = kept
  generalize n / 2 ^ k % 2 = last at last_cases
  generalize n % 2 ^ k = before at below
  generalize 2 ^ k = half at below
  rcases last_cases with rfl | rfl
  · rw [if_neg (by decide), Nat.mul_zero, Nat.add_zero]
    omega
  · rw [if_pos (by decide), Nat.mul_one]
    split
    · rename_i some_before
      have ne := bne_iff_ne.1 some_before
      omega
    · rename_i none_before
      have eq : before = 0 := by simpa using none_before
      omega

/-- An integer of at most 53 bits is a float itself. -/
theorem exists_round_of_lt {n : Nat} (pos : 0 < n) (lt : n < 2 ^ 53) (sign : Sign) :
    ∃ m e pos, UnpackedFloat.round .binary64 sign n 0 = .finite sign m e pos ∧ Fits m e ∧
      scaled? m e = some n := by
  have ne : n ≠ 0 := Nat.ne_of_gt pos
  have few : n.log2 ≤ 52 := Nat.le_of_lt_succ ((Nat.log2_lt ne).2 lt)
  have low : 2 ^ 52 ≤ n * 2 ^ (52 - n.log2) := by
    calc 2 ^ 52
      _ = 2 ^ n.log2 * 2 ^ (52 - n.log2) := by rw [← Nat.pow_add, Nat.add_sub_cancel' few]
      _ ≤ n * 2 ^ (52 - n.log2) := Nat.mul_le_mul_right _ (Nat.log2_self_le ne)
  have high : n * 2 ^ (52 - n.log2) < 2 ^ 53 := by
    calc n * 2 ^ (52 - n.log2)
      _ < 2 ^ (n.log2 + 1) * 2 ^ (52 - n.log2) :=
        Nat.mul_lt_mul_of_pos_right Nat.lt_log2_self (Nat.two_pow_pos _)
      _ = 2 ^ 53 := by rw [← Nat.pow_add]; congr 1; omega
  have target :
      Format.binary64.targetExponent (totalExponent n 0) = -((52 - n.log2 : Nat) : Int) := by
    simp only [Format.targetExponent, totalExponent, Format.mantissaBits, Format.minExponent]
    omega
  have amount : (0 - -((52 - n.log2 : Nat) : Int)).toNat = 52 - n.log2 := by omega
  have least : (-1074 : Int) ≤ 0 - ((52 - n.log2 : Nat) : Int) := by omega
  refine ⟨n * 2 ^ (52 - n.log2), 0 - ((52 - n.log2 : Nat) : Int), by omega, ?_,
    .normal low high least (by omega), ?_⟩
  · simp only [UnpackedFloat.round, target, decreaseExponent, amount, Nat.shiftLeft_eq,
      roundWithAccuracy, shiftToTargetExponent_of_normal low high least,
      ExtendedMantissa.roundedMantissa, ExtendedMantissa.accuracy, Accuracy.roundToNearestEven]
    rw [dif_neg (by omega)]
  · -- The significand is the integer with zeros behind it.
    cases shift : 52 - n.log2 with
    | zero =>
      show some (n * 2 ^ 0 * 2 ^ 0) = some n
      rw [Nat.pow_zero, Nat.mul_one, Nat.mul_one]
    | succ k =>
      have exponent : (0 : Int) - ((k + 1 : Nat) : Int) = .negSucc k := by omega
      have divides : n * 2 ^ (k + 1) % Nat.pow 2 (k + 1) = 0 := Nat.mul_mod_left _ _
      rw [exponent, scaled?, if_pos divides]
      exact congrArg some (Nat.mul_div_cancel n (Nat.two_pow_pos (k + 1)))

/-! An integer of more than 53 bits, of which `k + 1` are rounded away. -/

section Many

variable {n k : Nat}

theorem targetExponent_of_log2 (bits : n.log2 = 53 + k) :
    Format.binary64.targetExponent (totalExponent n 0) = ((k + 1 : Nat) : Int) := by
  simp only [Format.targetExponent, totalExponent, Format.mantissaBits, Format.minExponent, bits]
  omega

theorem shiftToTargetExponent_of_log2 (bits : n.log2 = 53 + k) :
    shiftToTargetExponent .binary64 n 0 .exact =
      ((⟨n, false, false⟩ : ExtendedMantissa) >>> (k + 1), ((k + 1 : Nat) : Int)) := by
  have amount : (((k + 1 : Nat) : Int) - 0).toNat = k + 1 := by omega
  rw [shiftToTargetExponent]
  simp only [targetExponent_of_log2 bits, shiftToExponent, amount, Int.zero_add]
  rfl

theorem ne_zero_of_log2 (bits : n.log2 = 53 + k) : n ≠ 0 := by
  rintro rfl
  rw [Nat.log2_zero] at bits
  omega

/-- The integer has the bits that are kept, and more. -/
theorem two_pow_mul_le_of_log2 (bits : n.log2 = 53 + k) : 2 ^ 52 * 2 ^ (k + 1) ≤ n := by
  rw [← Nat.pow_add]
  exact (show 52 + (k + 1) = n.log2 by omega) ▸ Nat.log2_self_le (ne_zero_of_log2 bits)

/-- There are 53 bits that are kept. -/
theorem div_lt_of_log2 (bits : n.log2 = 53 + k) : n / 2 ^ (k + 1) < 2 ^ 53 := by
  rw [Nat.div_lt_iff_lt_mul (Nat.two_pow_pos _), ← Nat.pow_add]
  exact (show n.log2 + 1 = 53 + (k + 1) by omega) ▸ Nat.lt_log2_self

/-- No more bits are rounded away than there are zeros in the largest float. -/
theorem le_topExponent_of_log2 (bits : n.log2 = 53 + k) (le : n ≤ largest) :
    k + 1 ≤ topExponent := by
  have lt : n < 2 ^ (53 + topExponent) := by
    rw [Nat.pow_add]
    exact Nat.lt_of_le_of_lt le (Nat.mul_lt_mul_of_pos_right (by decide) (Nat.two_pow_pos _))
  have := (Nat.log2_lt (ne_zero_of_log2 bits)).2 lt
  omega

/-- Where rounding carries to a bit more, there is a next exponent for it. -/
theorem ne_topExponent_of_carry (bits : n.log2 = 53 + k) (le : n ≤ largest)
    (carry : rounded n (k + 1) = 2 ^ 53) : k + 1 ≠ topExponent := by
  intro last
  obtain ⟨nearer, -⟩ := rounded_cases n k
  have high := div_lt_of_log2 bits
  have parts := Nat.div_add_mod' n (2 ^ (k + 1))
  have unit := Nat.two_pow_pos (k + 1)
  have all : n / 2 ^ (k + 1) = 2 ^ 53 - 1 := by omega
  rw [largest, ← last] at le
  rw [all] at parts
  omega

/-- An integer of more bits is rounded to a multiple of a power of two, and its significand is even
if that multiple is. -/
theorem exists_round_of_le (ge : 2 ^ 53 ≤ n) (le : n ≤ largest) (sign : Sign) :
    ∃ k, 2 ^ 52 * 2 ^ (k + 1) ≤ n ∧
      ∃ m e pos, UnpackedFloat.round .binary64 sign n 0 = .finite sign m e pos ∧ Fits m e ∧
        scaled? m e = some (rounded n (k + 1) * 2 ^ (k + 1)) ∧
        (rounded n (k + 1) % 2 = 0 → m % 2 = 0) := by
  obtain ⟨k, bits⟩ := Nat.exists_eq_add_of_le ((Nat.le_log2 (by omega)).2 ge)
  have many := two_pow_mul_le_of_log2 bits
  have low : 2 ^ 52 ≤ n / 2 ^ (k + 1) := (Nat.le_div_iff_mul_le (Nat.two_pow_pos _)).2 many
  have high := div_lt_of_log2 bits
  have top := topExponent_eq
  have most := le_topExponent_of_log2 bits le
  have least : (-1074 : Int) ≤ ((k + 1 : Nat) : Int) := by omega
  have amount : (0 - ((k + 1 : Nat) : Int)).toNat = 0 := by omega
  have kept : ((⟨n, false, false⟩ : ExtendedMantissa) >>> (k + 1)).roundedMantissa =
      rounded n (k + 1) := rfl
  obtain ⟨nearer, -⟩ := rounded_cases n k
  refine ⟨k, many, ?_⟩
  simp only [UnpackedFloat.round, targetExponent_of_log2 bits, decreaseExponent, amount,
    Int.natCast_zero, Int.sub_zero, Nat.shiftLeft_zero, roundWithAccuracy,
    shiftToTargetExponent_of_log2 bits, kept]
  by_cases small : rounded n (k + 1) < 2 ^ 53
  · refine ⟨rounded n (k + 1), ((k + 1 : Nat) : Int), by omega, ?_,
      .normal (by omega) small least (by omega), rfl, id⟩
    simp only [shiftToTargetExponent_of_normal (by omega) small least]
    rw [dif_neg (by omega)]
  · -- All 53 bits are ones, and the carry moves to the next exponent.
    have carry : rounded n (k + 1) = 2 ^ 53 := by omega
    have room := ne_topExponent_of_carry bits le carry
    refine ⟨2 ^ 52, ((k + 1 : Nat) : Int) + 1, by decide, ?_,
      .normal (Nat.le_refl _) (by decide) (by omega) (by omega), ?_, fun _ => by decide⟩
    · simp only [carry, shiftToTargetExponent_two_pow least]
      rw [dif_neg (by decide)]
    · show some (2 ^ 52 * 2 ^ (k + 1 + 1)) = _
      rw [carry, Nat.pow_succ 2 (k + 1), Nat.mul_comm _ 2, ← Nat.mul_assoc, Nat.pow_succ 2 52]

end Many

/-- The float of a natural number is what rounding it leaves. -/
theorem ofNat_eq_round {n : Nat} (pos : 0 < n) :
    ofNat n = .ofModel (Float.Model.pack (UnpackedFloat.round .binary64 .positive n 0)) := by
  have converted : ofNat n = .ofModel (Float.Model.ofNat n) := by
    rw [ofNat]
    split
    · rename_i lt
      have same : n.toUInt64.toNat = n := by
        rw [Nat.toUInt64, UInt64.toNat_ofNat', Nat.mod_eq_of_lt lt]
      show Float.ofModel (Float.Model.ofNat n.toUInt64.toNat) = _
      rw [same]
    · rfl
  have positive : compare (n : Int) 0 = .gt := Int.compare_eq_gt.2 (by omega)
  rw [converted, Float.Model.ofNat]
  simp only [UnpackedFloat.ofNat, UnpackedFloat.ofInt, UnpackedFloat.normalize, positive,
    Int.toNat_natCast]

/-- The float nearest to a natural number, up to the largest float, is integer-valued. -/
theorem isInteger_ofNat {n : Nat} (le : n ≤ largest) : isInteger (ofNat n) = true := by
  rcases Nat.eq_zero_or_pos n with rfl | pos
  · rfl
  · rw [isInteger, ofNat_eq_round pos]
    by_cases lt : n < 2 ^ 53
    · obtain ⟨m, e, pos, finite, fits, scaled⟩ := exists_round_of_lt pos lt .positive
      rw [finite, toInt?_pack fits, scaled]
      rfl
    · obtain ⟨k, -, m, e, pos, finite, fits, scaled, -⟩ :=
        exists_round_of_le (Nat.le_of_not_lt lt) le .positive
      rw [finite, toInt?_pack fits, scaled]
      rfl

/-- The float nearest to an integer between two floats is integer-valued. -/
theorem isInteger_ofInt {a b : Float} {start stop i : Int} (first : toInt? a = some start)
    (last : toInt? b = some stop) (ge : start ≤ i) (le : i ≤ stop) :
    isInteger (ofInt i) = true := by
  have low := natAbs_le_largest first
  have high := natAbs_le_largest last
  have bound : i.natAbs ≤ largest := by omega
  cases i with
  | ofNat n => exact isInteger_ofNat bound
  | negSucc n => exact isInteger_neg (isInteger_ofNat bound)

end RangeCalc.Number
