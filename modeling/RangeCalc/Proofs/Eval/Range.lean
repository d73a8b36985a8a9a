import Mathlib
import RangeCalc.Eval.Operator
import RangeCalc.Proofs.Number.Nearest

/-!
# Ranges

A range is counted in integers and holds floats. Each of its elements is the nearest float to the
integer that it stands for, and this is all that is needed to see that the elements are in order and
that the bounds are the first and the last of them, for the nearest float to an integer that is a
float is that integer. Beyond `2 ^ 53` an integer between the bounds may share its float with a
neighbour, and the count still is that of the integers.

* `isRange_integersFrom`: the integers from one bound to the other are the range between the two;
* `rangeBetween_outcome`: which values have no range between them, and what the range is of others.
-/

namespace RangeCalc

open Number (rational? toInt? IsNearest)

/-- The two bounds that a fault tells of. -/
def Fault.bounds? : Fault → Option (Float × Float)
  | fractionalBound first last => some (first, last)
  | reversedBounds first last _ _ => some (first, last)
  | _ => none

/-- The elements of the range between two floats, which are the integers `start` and `stop`. Zero has
two signs, so the bounds equal the ends of the range and need not be the same floats. -/
structure IsRange (first last : Float) (start stop : Int) (elements : List Float) : Prop where
  length : (elements.length : Int) = stop - start + 1
  nearest : ∀ (k : Nat) x, elements[k]? = some x → IsNearest (start + k) x
  sorted : elements.Pairwise (· ≤ ·)
  head : ∃ x, elements.head? = some x ∧ (x == first) = true
  getLast : ∃ x, elements.getLast? = some x ∧ (x == last) = true

variable {a b : Float} {start stop : Int} {elements : List Float}

/-- The nearest float to a bound equals the bound. -/
theorem beq_of_isNearest {x : Float} (exact : rational? a = some (start : ℚ))
    (h : IsNearest start x) : (x == a) = true :=
  (Number.beq_iff (h.exact exact) exact).2 rfl

/-- The nearest floats to as many integers as there are between two bounds are the range between
them. -/
theorem isRange_of_nearest (first : rational? a = some (start : ℚ)) (last : rational? b = some (stop : ℚ))
    (le : start ≤ stop) (length : (elements.length : Int) = stop - start + 1)
    (nearest : ∀ (k : Nat) x, elements[k]? = some x → IsNearest (start + k) x) :
    IsRange a b start stop elements where
  length := length
  nearest := nearest
  sorted := by
    rw [List.pairwise_iff_getElem]
    intro k l hk hl lt
    have before := nearest k _ (List.getElem?_eq_getElem hk)
    have after := nearest l _ (List.getElem?_eq_getElem hl)
    exact before.le after (by omega)
  head := by
    have pos : 0 < elements.length := by omega
    refine ⟨elements[0], by rw [List.head?_eq_getElem?, List.getElem?_eq_getElem pos], ?_⟩
    have at_start := nearest 0 _ (List.getElem?_eq_getElem pos)
    rw [Nat.cast_zero, add_zero] at at_start
    exact beq_of_isNearest first at_start
  getLast := by
    have lt : elements.length - 1 < elements.length := by omega
    refine ⟨elements[elements.length - 1],
      by rw [List.getLast?_eq_getElem?, List.getElem?_eq_getElem lt], ?_⟩
    have at_stop := nearest _ _ (List.getElem?_eq_getElem lt)
    rw [show start + ((elements.length - 1 : Nat) : Int) = stop by omega] at at_stop
    exact beq_of_isNearest last at_stop

/-- The integers from one bound to the other are the range between the two. -/
theorem isRange_integersFrom (first : rational? a = some (start : ℚ))
    (last : rational? b = some (stop : ℚ)) (le : start ≤ stop) :
    IsRange a b start stop (integersFrom start stop) := by
  have low := Number.natAbs_le_largest (Number.toInt?_eq_some_iff.2 first)
  have high := Number.natAbs_le_largest (Number.toInt?_eq_some_iff.2 last)
  refine isRange_of_nearest first last le ?_ fun k x h => ?_
  · rw [integersFrom, List.length_map, List.length_range]
    omega
  · rw [integersFrom, List.getElem?_map, Option.map_eq_some_iff] at h
    obtain ⟨k', found, rfl⟩ := h
    obtain ⟨lt, rfl⟩ := List.getElem?_eq_some_iff.1 found
    rw [List.length_range] at lt
    rw [List.getElem_range]
    exact Number.isNearest_ofInt (by omega)

/-- The kinds of the bounds are at fault exactly if one of them is no number. -/
theorem rangeBetween_eq_boundKinds_iff (first last : Value) :
    rangeBetween first last = .error (.boundKinds first.kind last.kind) ↔
      first.kind ≠ .number ∨ last.kind ≠ .number := by
  cases first with
  | number a =>
    cases last with
    | number b =>
      rw [rangeBetween]
      cases toInt? a <;> cases toInt? b <;> simp only [Value.kind]
      · simp
      · simp
      · simp
      · split <;> simp
    | string text => simp [rangeBetween, Value.kind]
    | sequence elements => simp [rangeBetween, Value.kind]
  | string text => simp [rangeBetween, Value.kind]
  | sequence elements => simp [rangeBetween, Value.kind]

/-- There is no range between two values if one of them is no number. Between numbers there is none
if one is no integer or if the first exceeds the last, and then the fault tells of both. Otherwise
the range is there. -/
theorem rangeBetween_outcome (first last : Value) :
    (rangeBetween first last = .error (.boundKinds first.kind last.kind) ↔
      first.kind ≠ .number ∨ last.kind ≠ .number) ∧
    ∀ a b, first = .number a → last = .number b →
      ((∃ fault, rangeBetween first last = .error fault ∧ fault.bounds? = some (a, b)) ↔
        (¬∃ start : Int, rational? a = some (start : ℚ)) ∨
          (¬∃ stop : Int, rational? b = some (stop : ℚ)) ∨
            ∃ start stop : Int, rational? a = some (start : ℚ) ∧ rational? b = some (stop : ℚ) ∧
              stop < start) ∧
      ∀ start stop : Int, rational? a = some (start : ℚ) → rational? b = some (stop : ℚ) →
        start ≤ stop → ∃ elements, rangeBetween first last = .ok (.sequence elements) ∧
          IsRange a b start stop elements := by
  refine ⟨rangeBetween_eq_boundKinds_iff first last, ?_⟩
  rintro a b rfl rfl
  constructor
  · simp only [← Number.toInt?_eq_some_iff, rangeBetween]
    cases toInt? a with
    | none => exact iff_of_true ⟨_, rfl, rfl⟩ (.inl (by simp))
    | some start =>
      cases toInt? b with
      | none => exact iff_of_true ⟨_, rfl, rfl⟩ (.inr (.inl (by simp)))
      | some stop =>
        by_cases lt : stop < start
        · simp only [if_pos lt]
          exact iff_of_true ⟨_, rfl, rfl⟩ (.inr (.inr ⟨start, stop, rfl, rfl, lt⟩))
        · simp [lt]
  · intro start stop at_start at_stop le
    refine ⟨integersFrom start stop, ?_, isRange_integersFrom at_start at_stop le⟩
    simp only [rangeBetween, Number.toInt?_eq_some_iff.2 at_start,
      Number.toInt?_eq_some_iff.2 at_stop, if_neg (not_lt.2 le)]

/-- Where every other integer has no float of its own, a range of four integers has three floats. -/
theorem rangeBetween_outcome_of_repetition :
    rangeBetween (.number 9007199254740991) (.number 9007199254740994) = .ok (.sequence
      [9007199254740991, 9007199254740992, 9007199254740992, 9007199254740994]) ∧
    IsRange 9007199254740991 9007199254740994 9007199254740991 9007199254740994
      [9007199254740991, 9007199254740992, 9007199254740992, 9007199254740994] := by
  have first : rational? 9007199254740991 = some ((9007199254740991 : Int) : ℚ) :=
    Number.toInt?_eq_some_iff.1 (by decide +kernel)
  have last : rational? 9007199254740994 = some ((9007199254740994 : Int) : ℚ) :=
    Number.toInt?_eq_some_iff.1 (by decide +kernel)
  obtain ⟨elements, found, isRange⟩ :=
    ((rangeBetween_outcome (.number 9007199254740991) (.number 9007199254740994)).2 _ _ rfl rfl).2
      _ _ first last (by decide)
  have computed :
      rangeBetween (.number 9007199254740991) (.number 9007199254740994) = .ok (.sequence
        [9007199254740991, 9007199254740992, 9007199254740992, 9007199254740994]) := by
    decide +kernel
  rw [computed] at found
  cases found
  exact ⟨computed, isRange⟩

end RangeCalc
