import LineBasic.Proofs.Number.Layout
import LineBasic.Proofs.Number.Value

/-!
# What is written of a number is the number rounded

A finite number other than zero is written as its exact value, rounded to six significant digits.
That is so in either notation. Which of them is used goes by the first digit of what is written, and
not of the number: a number just below a power of ten is written like that power. To round the
number itself once more, at the places that positional notation leaves for it, makes no
difference.

Results:
1. `SixDigits.value_ofUnits`: the six digits of a number of units are those of its exact value.
2. `Number.format_neg`: a number and its negative.
3. `Number.format_rounded`: what is written of a number.
-/

namespace LineBasic

namespace SixDigits

/-! ## 1. Six digits and their value -/

variable {n n' : SixDigits}

theorem leading_value (bounded : n.Bounded) : Decimal.leading n.value = n.exponent := by
  obtain ⟨least, most⟩ := value_bounds bounded
  have positive : 0 < n.value := lt_of_lt_of_le (zpow_pos (by norm_num) _) least
  exact Decimal.leading_eq (least.trans (le_abs_self _)) (by rwa [abs_of_pos positive])

/-- Six digits that are worth the same are the same. -/
theorem eq_of_value_eq (bounded : n.Bounded) (bounded' : n'.Bounded) (same : n.value = n'.value) :
    n = n' := by
  have exponent : n.exponent = n'.exponent := by
    rw [← leading_value bounded, ← leading_value bounded', same]
  have scale : (0 : ℚ) < 10 ^ (n'.exponent - 5) := zpow_pos (by norm_num) _
  rw [value, value, exponent, mul_left_inj' (ne_of_gt scale)] at same
  obtain ⟨digits, _⟩ := n
  cases exponent
  rw [show digits = n'.digits by exact_mod_cast same]

/-- A quotient that is lifted, and has a known number of places then, rounded to six digits. -/
theorem toSixDigits_lifted {a one lift places : ℕ} (positive : 0 < one) (seven : 7 ≤ places)
    (lower : one * 10 ^ (places - 1) ≤ a * 10 ^ lift) (upper : a * 10 ^ lift < one * 10 ^ places) :
    Decimal.toSixDigits (a / one) =
      roundDiv (a * 10 ^ lift) (one * 10 ^ (places - 6)) * 10 ^ ((places : ℤ) - lift - 6) := by
  have ten : (10 : ℚ) ≠ 0 := by norm_num
  have size : (0 : ℚ) < one := by exact_mod_cast positive
  have scale : (0 : ℚ) < 10 ^ lift := pow_pos (by norm_num) _
  have low : (one : ℚ) * 10 ^ (places - 1) ≤ a * 10 ^ lift := by exact_mod_cast lower
  have high : (a : ℚ) * 10 ^ lift < one * 10 ^ places := by exact_mod_cast upper
  have first : Decimal.leading (a / one) = places - lift - 1 := by
    have nonneg : (0 : ℚ) ≤ a / one := div_nonneg (Nat.cast_nonneg _) (le_of_lt size)
    refine Decimal.leading_eq ?_ ?_
    · rw [abs_of_nonneg nonneg,
        show (places : ℤ) - lift - 1 = ((places - 1 : ℕ) : ℤ) - lift by omega, zpow_sub₀ ten,
        zpow_natCast, zpow_natCast, div_le_div_iff₀ scale size]
      linarith
    · rw [abs_of_nonneg nonneg, show (places : ℤ) - lift - 1 + 1 = places - lift by ring,
        zpow_sub₀ ten, zpow_natCast, zpow_natCast, div_lt_div_iff₀ size scale]
      linarith
  have scaled : (a / one : ℚ) * 10 ^ (5 - Decimal.leading (a / one : ℚ)) =
      (a * 10 ^ lift : ℕ) / (one * 10 ^ (places - 6) : ℕ) := by
    rw [first, show 5 - ((places : ℤ) - lift - 1) = lift - ((places - 6 : ℕ) : ℤ) by omega,
      zpow_sub₀ ten, zpow_natCast, zpow_natCast, div_mul_div_comm]
    push_cast
    rfl
  rw [Decimal.toSixDigits_eq, scaled,
    ← Decimal.roundDiv_eq _ (Nat.mul_pos positive (by positivity)), first, Int.cast_natCast]
  congr 2
  ring

open Double in
/-- The six digits of a number of units are those of its exact value. -/
theorem value_ofUnits {units : ℕ} (positive : 0 < units) (bounded : units ≤ largestUnits) :
    (ofUnits units).value = Decimal.toSixDigits (units / unitsPerOne) := by
  unfold ofUnits
  simp only [Nat.pow_eq]
  generalize known : decimalPlaces (units * 10 ^ lift / unitsPerOne) = places
  obtain ⟨seven, -, lower, upper⟩ := lifted_spec positive bounded known
  rw [toSixDigits_lifted unitsPerOne_pos seven lower upper]
  split
  next carried =>
    rw [carried, value]
    simp only
    rw [show (places : ℤ) - lift - 5 = places - lift - 6 + 1 by ring, zpow_add_one₀ (by norm_num)]
    push_cast
    ring
  next =>
    rw [value]
    simp only
    congr 2
    ring

end SixDigits

/-! ## 2. What is written of a number -/

theorem Numeral.ofList_signed (n : Numeral) :
    String.ofList (n.signed true) = "-" ++ String.ofList (n.signed false) :=
  (String.ofList_append : String.ofList (['-'] ++ n.text) = _)

namespace Number

variable {x : Number}

theorem value_ne_zero (finite : x.isFinite = true) (above : 0 < Double.magnitude x) :
    x.value ≠ 0 := by
  have some := (SixDigits.units_bounds above ((Double.isFinite_iff x).1 finite)).1
  have size : (0 : ℚ) < Double.units (Double.magnitude x) / Double.unitsPerOne :=
    div_pos (by exact_mod_cast some) Double.cast_unitsPerOne_pos
  rw [← abs_value finite] at size
  exact abs_pos.1 size

/-- The negative of a number above zero is written with a sign in front of what is written of the
number. -/
theorem format_neg (finite : x.isFinite = true) (positive : 0 < x) :
    (-x).format = "-" ++ x.format := by
  obtain ⟨unsigned, above, number⟩ := Double.of_pos positive
  obtain ⟨magnitude, sign⟩ := Double.toBits_neg number
  have below := (Double.isFinite_iff x).1 finite
  rw [format_of_units above below, format_of_units (magnitude ▸ above) (magnitude ▸ below),
    magnitude, sign, unsigned, Bool.not_false, Numeral.ofList_signed]

/-- The exact value, rounded to six significant digits. -/
def rounded (x : Number) : ℚ := Decimal.toSixDigits x.value

/-- The six digits that a number is written with are those of its exact value. -/
theorem sixDigits_spec (finite : x.isFinite = true) (nonzero : x.value ≠ 0) :
    ∃ n : SixDigits, n.Bounded ∧ x.format = String.ofList (n.numeral.signed (x.value < 0)) ∧
      x.rounded = (if x.value < 0 then -n.value else n.value) ∧
      Decimal.leading x.rounded = n.exponent := by
  have above := magnitude_pos finite nonzero
  have below := (Double.isFinite_iff x).1 finite
  obtain ⟨some, most⟩ := SixDigits.units_bounds above below
  have bounded := SixDigits.ofUnits_bounds some most
  have size := SixDigits.value_ofUnits some most
  rw [← abs_value finite] at size
  have value : x.rounded =
      if x.value < 0 then -(SixDigits.ofUnits (Double.units (Double.magnitude x))).value
      else (SixDigits.ofUnits (Double.units (Double.magnitude x))).value := by
    rw [size, rounded]
    split
    next negative => rw [abs_of_neg negative, Decimal.toSixDigits_neg, neg_neg]
    next notNegative => rw [abs_of_nonneg (not_lt.1 notNegative)]
  refine ⟨_, bounded, ?_, value, ?_⟩
  · rw [format_of_units above below, isNegative_eq finite nonzero]
  · rw [value]
    split
    next => rw [Decimal.leading_neg, SixDigits.leading_value bounded]
    next => exact SixDigits.leading_value bounded

/-- What is written of a number is its exact value, rounded to six digits, in either notation. The
exponent is written if the first digit of the rounded value asks for it. To round the number itself
at the places that are left for it comes to the same, and in positional notation the same is written
then. -/
theorem format_rounded (finite : x.isFinite = true) (nonzero : x.value ≠ 0) :
    (∃ n : Numeral, n.WellFormed ∧ x.format = String.ofList (n.signed (x.value < 0)) ∧
      n.signedValue (x.value < 0) = x.rounded ∧ n.LaidOut (Decimal.leading x.rounded)) ∧
    Decimal.atPlaces (5 - Decimal.leading x.rounded) x.value = x.rounded ∧
    (-4 ≤ Decimal.leading x.rounded → Decimal.leading x.rounded < 6 →
      x.format = String.ofList
        (Text.trimFraction (Decimal.fixed (5 - Decimal.leading x.rounded).toNat x.value))) ∧
    (0 < x → (-x).format = "-" ++ x.format) := by
  obtain ⟨n, bounded, text, value, first⟩ := sixDigits_spec finite nonzero
  have again := Decimal.atPlaces_toSixDigits nonzero
  rw [← rounded] at again
  refine ⟨⟨n.numeral, SixDigits.wellFormed_numeral n, text, ?_, first ▸ SixDigits.laidOut bounded⟩,
    again, ?_, format_neg finite⟩
  · rw [value, Numeral.signedValue, SixDigits.value_numeral bounded]
    simp only [decide_eq_true_iff]
  · rw [first, text]
    intro least most
    rw [SixDigits.trimFraction_fixed bounded least most]
    rw [first, value] at again
    split at again
    next negative => rw [abs_of_neg negative, Decimal.atPlaces_neg, again, neg_neg]
    next notNegative => rw [abs_of_nonneg (not_lt.1 notNegative), again]

/-- A number just below ten is written like ten, although its own first digit leaves room for one
place more. -/
theorem format_rounded_carried :
    (Float.ofBits 0x4023FFFFF0000000).isFinite = true ∧
      Number.value (Float.ofBits 0x4023FFFFF0000000) = 20971519 / 2097152 ∧
      (∃ n : Numeral, n.WellFormed ∧ "10" = String.ofList (n.signed false) ∧
        n.signedValue false = 10 ∧ n.LaidOut 1) ∧
      Decimal.atPlaces 4 (20971519 / 2097152) = 10 ∧
      "10" = String.ofList (Text.trimFraction (Decimal.fixed 4 (20971519 / 2097152))) ∧
      Number.format (-Float.ofBits 0x4023FFFFF0000000) = "-10" := by
  have finite : (Float.ofBits 0x4023FFFFF0000000).isFinite = true := by decide +kernel
  have value : Number.value (Float.ofBits 0x4023FFFFF0000000) = 20971519 / 2097152 := by
    decide +kernel
  have text : Number.format (Float.ofBits 0x4023FFFFF0000000) = "10" := by decide +kernel
  have ten : Number.rounded (Float.ofBits 0x4023FFFFF0000000) = 10 := by decide +kernel
  have first : Decimal.leading 10 = 1 := by decide +kernel
  have above : decide ((20971519 / 2097152 : ℚ) < 0) = false := by decide +kernel
  have result := format_rounded finite (by rw [value]; decide +kernel)
  rw [value, text, ten, first, above] at result
  obtain ⟨written, again, positional, negated⟩ := result
  exact ⟨finite, value, written, again, positional (by decide) (by decide),
    negated (by decide +kernel)⟩

/-- Below a million, rounding can ask for an exponent. -/
example : Number.format (Float.ofBits 0x412E847F00000000) = "1e+06" := by decide +kernel

end Number

end LineBasic
