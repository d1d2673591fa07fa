import LineBasic.Proofs.Number.Nearest
import LineBasic.Proofs.Number.Rendering

/-!
# What is written stays the same when it is read and written again

A number loses digits when it is written, so it need not be the number that is read back. But that
number is written in the same way. What is read is off from the six digits by one part in `2 ^ 53`
and half a unit, and down to the least double with all its digits both are far less than half a step
in the sixth digit, even where steps are the smallest, below a power of ten.

Results:
1. `SixDigits.toSixDigits_of_close`: what is close to six digits is rounded to them.
2. `SixDigits.format_toNumber`: six digits that are read are written again.
3. `Number.format_stable`: what is read back is written in the same way.
-/

namespace LineBasic

open Double (unitsPerOne)

namespace SixDigits

variable {n : SixDigits}

/-- From `10 ^ -308` on, two units are no step in the seventh digit. -/
theorem unit_le {k : ℤ} (least : -308 ≤ k) : 2 / (unitsPerOne : ℚ) ≤ 10 ^ (k - 6) := by
  have units : 2 * 10 ^ 314 ≤ unitsPerOne := by decide +kernel
  have size := Double.cast_unitsPerOne_pos
  have units' : (2 : ℚ) * 10 ^ 314 ≤ unitsPerOne := by exact_mod_cast units
  calc 2 / (unitsPerOne : ℚ) ≤ 1 / 10 ^ 314 := by
        rw [div_le_div_iff₀ size (by positivity), one_mul]
        exact units'
    _ = 10 ^ (-(314 : ℕ) : ℤ) := by rw [zpow_neg, zpow_natCast, one_div]
    _ ≤ 10 ^ (k - 6) := zpow_le_zpow_right₀ (by norm_num) (by push_cast; omega)

/-- What is close to six digits is rounded to them. -/
theorem toSixDigits_of_close (bounded : n.Bounded) (least : -308 ≤ n.exponent) {magnitude : ℕ}
    (close : Double.Close magnitude n.value) :
    Decimal.toSixDigits (Double.units magnitude / unitsPerOne) = n.value := by
  have step : (0 : ℚ) < 10 ^ (n.exponent - 6) := zpow_pos (by norm_num) _
  have unit := unit_le least
  have size : n.value < 10 ^ 7 * 10 ^ (n.exponent - 6) := by
    have most := (value_bounds bounded).2
    rwa [show n.exponent + 1 = (7 : ℕ) + (n.exponent - 6) by push_cast; ring,
      zpow_add₀ (by norm_num), zpow_natCast] at most
  have half : 1 / (2 * (unitsPerOne : ℚ)) = 2 / unitsPerOne / 4 := by ring
  rw [Double.Close, half] at close
  have near : |Double.units magnitude / unitsPerOne - n.value| < 10 ^ (n.exponent - 6) / 2 :=
    lt_of_le_of_lt close (by linarith)
  have digits : n.value = (n.digits : ℤ) * 10 ^ (n.exponent - 5) := by rw [value, Int.cast_natCast]
  rw [digits] at near ⊢
  exact Decimal.toSixDigits_of_near (by exact_mod_cast bounded.least)
    (by exact_mod_cast bounded.most) near

/-- The six digits that are read again are the same. -/
theorem ofUnits_of_close (bounded : n.Bounded) (least : -308 ≤ n.exponent) {magnitude : ℕ}
    (finite : magnitude < Double.infinity) (close : Double.Close magnitude n.value) :
    0 < magnitude ∧ ofUnits (Double.units magnitude) = n := by
  have same := toSixDigits_of_close bounded least close
  have above : 0 < magnitude := by
    refine Nat.pos_of_ne_zero fun none => ?_
    have zero : Decimal.toSixDigits 0 = 0 := by decide +kernel
    have empty : Double.units 0 = 0 := rfl
    rw [none, empty, Nat.cast_zero, zero_div, zero] at same
    exact absurd (value_bounds bounded).1 (not_le.2 (same ▸ zpow_pos (by norm_num) _))
  obtain ⟨some, most⟩ := units_bounds above finite
  rw [← value_ofUnits some most] at same
  exact ⟨above, eq_of_value_eq (ofUnits_bounds some most) bounded same⟩

/-- The number that six digits are read as is written with these digits. -/
theorem format_toNumber (negative : Bool) (bounded : n.Bounded) (least : -308 ≤ n.exponent) :
    (n.numeral.toNumber negative).isFinite = true ∧
      Number.format (n.numeral.toNumber negative) = String.ofList (n.numeral.signed negative) := by
  have value := value_numeral bounded
  have written := value_le bounded
  have tiny : (10 : ℚ) ^ (-308 : ℤ) ≤ n.value :=
    (zpow_le_zpow_right₀ (by norm_num) least).trans (value_bounds bounded).1
  have close := Numeral.close_toNumber negative (value ▸ tiny) (value ▸ written)
  have finite := @Numeral.isFinite_toNumber negative _ (value ▸ written)
  have below := (Double.isFinite_iff _).1 finite
  obtain ⟨above, same⟩ := ofUnits_of_close bounded least below (value ▸ close)
  refine ⟨finite, ?_⟩
  rw [Number.format_of_units above below, same, Numeral.isNegative_toNumber]

end SixDigits

namespace Number

variable {x : Number}

/-- What is written of a number that has all its digits begins from `10 ^ -308` on. -/
theorem leading_rounded (normal : (2 : ℚ) ^ (-1022 : ℤ) ≤ |x.value|) :
    -308 ≤ Decimal.leading x.rounded := by
  have powers : 2 ^ 1022 ≤ 10 ^ 308 := by decide +kernel
  have powers' : (2 : ℚ) ^ 1022 ≤ 10 ^ 308 := by exact_mod_cast powers
  have least : (10 : ℚ) ^ (-(308 : ℕ) : ℤ) ≤ |x.value| := by
    refine le_trans ?_ normal
    rw [show (-1022 : ℤ) = -(1022 : ℕ) from rfl, zpow_neg, zpow_neg, zpow_natCast, zpow_natCast]
    exact inv_anti₀ (pow_pos two_pos _) powers'
  have nonzero : x.value ≠ 0 := abs_pos.1 (lt_of_lt_of_le (zpow_pos two_pos _) normal)
  exact (Decimal.le_leading least).trans (Decimal.leading_le_leading_toSixDigits nonzero)

/-- What is read back of a number that is zero, or has all its digits, is a finite number that is
written in the same way. -/
theorem format_stable (finite : x.isFinite = true)
    (normal : x.value = 0 ∨ (2 : ℚ) ^ (-1022 : ℤ) ≤ |x.value|) :
    ∃ y, read x.format = some y ∧ y.isFinite = true ∧ y.format = x.format := by
  rcases Nat.eq_zero_or_pos (Double.magnitude x) with empty | above
  · rw [format_zero empty]
    have zero := Numeral.read_text Numeral.wellFormed_zero (List.cons_ne_nil '0' [])
    exact ⟨_, zero, by decide +kernel, by decide +kernel⟩
  · have nonzero := value_ne_zero finite above
    obtain ⟨n, bounded, text, -, first⟩ := sixDigits_spec finite nonzero
    have least : -308 ≤ n.exponent := first ▸ leading_rounded (normal.resolve_left nonzero)
    obtain ⟨finite', same⟩ := SixDigits.format_toNumber (x.value < 0) bounded least
    refine ⟨_, ?_, finite', same.trans text.symm⟩
    rw [text]
    exact Numeral.read_signed _ (SixDigits.wellFormed_numeral n)
      (List.append_ne_nil_of_left_ne_nil (SixDigits.whole_numeral_ne_nil n) _)

/-- The least double with all its digits is rounded down, and what is read back has less of them. -/
theorem format_stable_least :
    Number.value (Float.ofBits 0x0010000000000000) = 2 ^ (-1022 : ℤ) ∧
      ∃ y, read "2.22507e-308" = some y ∧ y.isFinite = true ∧ y.format = "2.22507e-308" := by
  have finite : (Float.ofBits 0x0010000000000000).isFinite = true := by decide +kernel
  have value : Number.value (Float.ofBits 0x0010000000000000) = 2 ^ (-1022 : ℤ) := by
    decide +kernel
  have text : Number.format (Float.ofBits 0x0010000000000000) = "2.22507e-308" := by
    decide +kernel
  have normal : (2 : ℚ) ^ (-1022 : ℤ) ≤ |Number.value (Float.ofBits 0x0010000000000000)| := by
    rw [value]
    exact le_abs_self _
  have result := format_stable finite (.inr normal)
  rw [text] at result
  exact ⟨value, result⟩

end Number

end LineBasic
