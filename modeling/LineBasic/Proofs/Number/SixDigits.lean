import LineBasic.Number.Places.Lemmas
import LineBasic.Number.SixDigits
import LineBasic.Proofs.Number.Double

/-!
# Six digits

A positive number of units is rounded to six digits of which the first is no zero. What a finite
double is rounded to goes no further than what the greatest is rounded to, which is less than it.

Results:
1. `places_spec`: how many digits a quotient has before the point.
2. `ofUnits_bounds`: there are six digits, and no more than those of the greatest double.
3. `units_bounds`: every finite double above zero has a number of units that this applies to.
-/

namespace LineBasic

namespace SixDigits

/-- Six digits that do not begin with a zero, and are no more than those of the greatest double. -/
structure Bounded (n : SixDigits) : Prop where
  least : 100000 ≤ n.digits
  most : n.digits < 1000000
  exponent : n.exponent ≤ 308
  greatest : n.exponent = 308 → n.digits ≤ 179769

namespace BoundLemmas

open Double

theorem lift_spec : 10 ^ 6 * unitsPerOne ≤ 10 ^ lift := by decide +kernel

theorem largest_lifted : largestUnits * 10 ^ lift < unitsPerOne * 10 ^ 639 := by decide +kernel

/-- The greatest double is nearer to `1.79769e308` than to the next number with six digits. -/
theorem largest_rounded :
    2 * (largestUnits * 10 ^ lift) < unitsPerOne * 10 ^ (639 - 6) * (2 * 179769 + 1) := by
  decide +kernel

/-- The number of places of a quotient says how large it is. -/
theorem places_spec {lifted one places : Nat} (positive : 0 < one) (large : 10 ^ 6 * one ≤ lifted)
    (small : lifted < one * 10 ^ 639) (known : decimalPlaces (lifted / one) = places) :
    7 ≤ places ∧ places ≤ 639 ∧ one * 10 ^ (places - 1) ≤ lifted ∧ lifted < one * 10 ^ places := by
  have quotient : 10 ^ 6 ≤ lifted / one := (Nat.le_div_iff_mul_le positive).2 large
  obtain ⟨lower, upper⟩ := decimalPlaces_spec (Nat.lt_of_lt_of_le (by decide) quotient)
  rw [known] at lower upper
  have above := (Nat.pow_lt_pow_iff_right (by decide)).1 (Nat.lt_of_le_of_lt quotient upper)
  have below := (Nat.pow_lt_pow_iff_right (by decide)).1
    (Nat.lt_of_le_of_lt lower (Nat.div_lt_of_lt_mul small))
  refine ⟨above, by omega, ?_, ?_⟩
  · exact Nat.le_trans (Nat.mul_le_mul_left one lower) (Nat.mul_div_le lifted one)
  · rw [Nat.mul_comm]
    exact (Nat.div_lt_iff_lt_mul positive).1 upper

/-- A quotient that is nearer to `q` or below is not rounded to more. -/
theorem roundDiv_le_of_lt {a b q : Nat} (hb : 0 < b) (h : 2 * a < b * (2 * q + 1)) :
    roundDiv a b ≤ q := by
  have near := (roundDiv_near a hb).2
  refine Nat.le_of_not_lt fun above => ?_
  have further : b * (q + 1) ≤ b * roundDiv a b := Nat.mul_le_mul_left b above
  rw [Nat.mul_add] at further h
  rw [Nat.mul_left_comm] at h
  omega

/-- The digits of a number with a given number of places. -/
theorem roundDiv_bounds {lifted one places : Nat} (positive : 0 < one) (seven : 7 ≤ places)
    (lower : one * 10 ^ (places - 1) ≤ lifted) (upper : lifted < one * 10 ^ places) :
    100000 ≤ roundDiv lifted (one * 10 ^ (places - 6)) ∧
      roundDiv lifted (one * 10 ^ (places - 6)) ≤ 1000000 := by
  have size : 0 < one * 10 ^ (places - 6) := Nat.mul_pos positive (Nat.pow_pos (by decide))
  constructor
  · refine le_roundDiv size ?_
    rwa [Nat.mul_assoc, show 100000 = 10 ^ 5 from rfl, ← Nat.pow_add,
      show places - 6 + 5 = places - 1 by omega]
  · refine roundDiv_le size (Nat.le_of_lt ?_)
    rwa [Nat.mul_assoc, show 1000000 = 10 ^ 6 from rfl, ← Nat.pow_add,
      show places - 6 + 6 = places by omega]

end BoundLemmas

open BoundLemmas Double

/-- How many places a double has before the point when it has been lifted. -/
theorem lifted_spec {units places : Nat} (positive : 0 < units) (bounded : units ≤ largestUnits)
    (known : decimalPlaces (units * 10 ^ lift / unitsPerOne) = places) :
    7 ≤ places ∧ places ≤ 639 ∧ unitsPerOne * 10 ^ (places - 1) ≤ units * 10 ^ lift ∧
      units * 10 ^ lift < unitsPerOne * 10 ^ places := by
  have large : 10 ^ 6 * unitsPerOne ≤ units * 10 ^ lift :=
    Nat.le_trans lift_spec (Nat.le_mul_of_pos_left _ positive)
  have small : units * 10 ^ lift < unitsPerOne * 10 ^ 639 :=
    Nat.lt_of_le_of_lt (Nat.mul_le_mul_right _ bounded) largest_lifted
  exact places_spec unitsPerOne_pos large small known

theorem ofUnits_bounds {units : Nat} (positive : 0 < units) (bounded : units ≤ largestUnits) :
    (ofUnits units).Bounded := by
  have one := unitsPerOne_pos
  have lifted_le : units * 10 ^ lift ≤ largestUnits * 10 ^ lift := Nat.mul_le_mul_right _ bounded
  have rounded := Nat.lt_of_le_of_lt (Nat.mul_le_mul_left 2 lifted_le) largest_rounded
  have exponent : (lift : Int) = 330 := rfl
  unfold ofUnits
  simp only [Nat.pow_eq]
  generalize known : decimalPlaces (units * 10 ^ lift / unitsPerOne) = places
  obtain ⟨seven, most, lower, upper⟩ := lifted_spec positive bounded known
  generalize units * 10 ^ lift = lifted at *
  generalize unitsPerOne = one' at *
  generalize (lift : Int) = lift' at *
  obtain ⟨low, high⟩ := roundDiv_bounds one seven lower upper
  have size : 0 < one' * 10 ^ (places - 6) := Nat.mul_pos one (Nat.pow_pos (by decide))
  have top : places = 639 → roundDiv lifted (one' * 10 ^ (places - 6)) ≤ 179769 := by
    intro full
    subst full
    exact roundDiv_le_of_lt size rounded
  split
  next round =>
    -- Rounding up to a seventh digit does not happen at the greatest exponent.
    have notFull : places ≠ 639 := by
      intro full
      have := top full
      omega
    exact { least := Nat.le_refl 100000, most := by simp only; omega
            exponent := by simp only; omega, greatest := by simp only; omega }
  next notRound =>
    refine { least := low, most := by simp only; omega, exponent := by simp only; omega
             greatest := ?_ }
    intro full
    exact top (by simp only at full; omega)

theorem units_bounds {magnitude : Nat} (positive : 0 < magnitude)
    (finite : magnitude < infinity) :
    0 < units magnitude ∧ units magnitude ≤ largestUnits := by
  have size : mantissaSize = 4503599627370496 := rfl
  have top : infinity = 2047 * 4503599627370496 := rfl
  have shift_le : shift magnitude ≤ largestShift := by
    rw [shift, size, show largestShift = 2045 from rfl]
    omega
  have mantissa_le : magnitude - shift magnitude * mantissaSize ≤ 9007199254740991 := by
    rw [shift, size]
    omega
  have mantissa_pos : 0 < magnitude - shift magnitude * mantissaSize := by
    rw [shift, size]
    omega
  rw [units, Nat.pow_eq]
  exact ⟨Nat.mul_pos mantissa_pos (Nat.pow_pos (by decide)),
    mul_le_largestUnits mantissa_le shift_le⟩

end SixDigits

end LineBasic
