import LineBasic.Proofs.Number.Decimal
import LineBasic.Proofs.Number.Format

/-!
# How near the nearest double is

A decimal is read as the double nearest to it. Between that double and the decimal lies no more than
half a unit where doubles are a unit apart, and elsewhere no more than one part in `2 ^ 53` of the
decimal (`Double.Close`).

Results:
1. `Double.nearest_eq`, `Double.nearest_spec`: the units of the nearest double are the rounded
   quotient.
2. `Double.close_nearest`: it is close to the quotient.
3. `Double.close_ofDecimal`, `Numeral.close_toNumber`: what is read is close to what is written.
-/

namespace LineBasic

namespace Double

/-- The double with a given magnitude is off from a value by half a unit and one part in `2 ^ 53` at
most. -/
def Close (magnitude : ℕ) (q : ℚ) : Prop :=
  |(units magnitude : ℚ) / unitsPerOne - q| ≤ 1 / (2 * unitsPerOne) + q / 2 ^ 53

/-! ## 1. Quotients -/

/-- The units of a mantissa at an exponent. A mantissa that has been rounded up to the next power of
two moves on to the next exponent. -/
theorem units_of_mantissa {mantissa shift : ℕ} (most : mantissa ≤ 2 ^ 53)
    (normal : shift = 0 ∨ 2 ^ 52 ≤ mantissa) :
    units (shift * mantissaSize + mantissa) = mantissa * 2 ^ shift := by
  have size : mantissaSize = 4503599627370496 := rfl
  rw [units, Double.shift, Nat.pow_eq, size]
  rcases Nat.lt_or_eq_of_le most with below | carried
  · have kept : (shift * 4503599627370496 + mantissa) / 4503599627370496 - 1 = shift := by omega
    rw [kept, Nat.add_sub_cancel_left]
  · have next : (shift * 4503599627370496 + mantissa) / 4503599627370496 - 1 = shift + 1 := by omega
    have rest : shift * 4503599627370496 + mantissa - (shift + 1) * 4503599627370496 =
        4503599627370496 := by omega
    rw [next, rest, carried, Nat.pow_succ]
    omega

variable {num den : ℕ}

/-- The mantissa of the nearest double is the rounded quotient in units of a power of two. The power
is one, or small against the quotient. -/
theorem nearest_eq (positive : 0 < den) :
    ∃ shift mantissa, nearest num den = min (shift * mantissaSize + mantissa) infinity ∧
      mantissa = roundDiv (num * unitsPerOne) (den * 2 ^ shift) ∧ mantissa ≤ 2 ^ 53 ∧
      (shift = 0 ∨ 2 ^ 52 ≤ mantissa ∧ den * 2 ^ shift * 2 ^ 52 ≤ num * unitsPerOne) := by
  unfold nearest
  generalize num * unitsPerOne = units' at *
  have least := Nat.mul_div_le units' den
  have most := Nat.lt_mul_div_succ units' positive
  generalize units' / den = whole at *
  have top : whole < 2 ^ (whole.log2 + 1) := Nat.lt_log2_self
  simp only [Nat.pow_eq]
  have bottom : whole.log2 - 52 = 0 ∨ 2 ^ (whole.log2 - 52 + 52) ≤ whole := by
    rcases Nat.eq_zero_or_pos (whole.log2 - 52) with none | some
    · exact .inl none
    · refine .inr ?_
      rw [Nat.sub_add_cancel (by omega)]
      exact Nat.log2_self_le fun zero => by simp [zero] at some
  have top' : whole + 1 ≤ 2 ^ (whole.log2 - 52 + 53) :=
    Nat.le_trans top (Nat.pow_le_pow_right (by decide) (by omega))
  generalize whole.log2 - 52 = shift at *
  have unit : 0 < den * 2 ^ shift := Nat.mul_pos positive (Nat.two_pow_pos shift)
  refine ⟨shift, _, rfl, rfl, roundDiv_le unit ?_, bottom.imp_right fun bottom => ?_⟩
  · rw [Nat.mul_assoc, ← Nat.pow_add]
    exact Nat.le_of_lt (Nat.lt_of_lt_of_le most (Nat.mul_le_mul_left den top'))
  · have large : den * 2 ^ shift * 2 ^ 52 ≤ units' := by
      refine Nat.le_trans ?_ least
      rw [Nat.mul_assoc, ← Nat.pow_add]
      exact Nat.mul_le_mul_left den bottom
    exact ⟨le_roundDiv unit large, large⟩

/-- The units of the nearest double are the quotient, rounded to a multiple of a power of two that
is either one or small against it. -/
theorem nearest_spec (positive : 0 < den) (finite : nearest num den < infinity) :
    ∃ shift, units (nearest num den) =
        roundDiv (num * unitsPerOne) (den * 2 ^ shift) * 2 ^ shift ∧
      (shift = 0 ∨ den * 2 ^ shift * 2 ^ 52 ≤ num * unitsPerOne) := by
  obtain ⟨shift, mantissa, value, rounded, most, large⟩ := @nearest_eq num den positive
  refine ⟨shift, ?_, large.imp_right And.right⟩
  rw [value] at finite ⊢
  rw [Nat.min_eq_left (by omega), ← rounded]
  exact units_of_mantissa most (large.imp_right And.left)

/-- The nearest double is close to the quotient. -/
theorem close_nearest (positive : 0 < den) (finite : nearest num den < infinity) :
    Close (nearest num den) (num / den) := by
  obtain ⟨shift, value, large⟩ := nearest_spec positive finite
  have size : (0 : ℚ) < den := by exact_mod_cast positive
  have size' := cast_unitsPerOne_pos
  have scale : (0 : ℚ) < 2 ^ shift := pow_pos two_pos shift
  have near := Decimal.abs_sub_nearestWhole_le
    ((num * unitsPerOne : ℕ) / (den * 2 ^ shift : ℕ) : ℚ)
  rw [← Decimal.roundDiv_eq _ (Nat.mul_pos positive (Nat.two_pow_pos shift)), Int.cast_natCast]
    at near
  rw [Close, value]
  generalize roundDiv (num * unitsPerOne) (den * 2 ^ shift) = mantissa at *
  generalize unitsPerOne = one at *
  push_cast at near ⊢
  have off : |(mantissa : ℚ) * 2 ^ shift / one - num / den| ≤ 2 ^ shift / (2 * one) := by
    have scaled : (mantissa : ℚ) * 2 ^ shift / one - num / den =
        -(num * one / (den * 2 ^ shift) - mantissa) * (2 ^ shift / one) := by
      field_simp
      ring
    rw [scaled, abs_mul, abs_neg, abs_of_pos (div_pos scale size')]
    calc _ ≤ 1 / 2 * (2 ^ shift / one : ℚ) :=
          mul_le_mul_of_nonneg_right near (le_of_lt (div_pos scale size'))
      _ = 2 ^ shift / (2 * one) := by ring
  refine off.trans ?_
  rcases large with rfl | large
  · rw [pow_zero]
    exact le_add_of_nonneg_right (by positivity)
  · have large' : (den * 2 ^ shift * 2 ^ 52 : ℚ) ≤ num * one := by exact_mod_cast large
    refine le_trans ?_ (le_add_of_nonneg_left (by positivity))
    rw [div_div, div_le_div_iff₀ (by positivity) (by positivity)]
    linarith

/-! ## 2. Decimals -/

/-- A decimal that is told from its digits to be small is small. -/
theorem digits_mul_lt {digits : ℕ} {exponent k : ℤ} (small : exponent + (digits.log2 + 1) ≤ k) :
    (digits : ℚ) * 10 ^ exponent < 10 ^ k := by
  have power : digits < 10 ^ (digits.log2 + 1) :=
    Nat.lt_of_lt_of_le Nat.lt_log2_self (Nat.pow_le_pow_left (by decide) _)
  have power' : (digits : ℚ) < 10 ^ ((digits.log2 + 1 : ℕ) : ℤ) := by exact_mod_cast power
  calc (digits : ℚ) * 10 ^ exponent < 10 ^ ((digits.log2 + 1 : ℕ) : ℤ) * 10 ^ exponent :=
        mul_lt_mul_of_pos_right power' (zpow_pos (by norm_num) exponent)
    _ = 10 ^ ((digits.log2 + 1 : ℕ) + exponent) := (zpow_add₀ (by norm_num) _ _).symm
    _ ≤ 10 ^ k := zpow_le_zpow_right₀ (by norm_num) (by push_cast; omega)

/-- What is read of a value within bounds is close to it. -/
theorem close_ofDecimal {negative : Bool} {digits : ℕ} {exponent : ℤ}
    (least : (10 : ℚ) ^ (-308 : ℤ) ≤ digits * 10 ^ exponent)
    (most : (digits : ℚ) * 10 ^ exponent ≤ greatestWritten) :
    Close (magnitude (ofDecimal negative digits exponent)) (digits * 10 ^ exponent) := by
  have finite := (isFinite_iff _).1 (@isFinite_ofDecimal negative _ _ most)
  have reads := (ofDecimal_spec negative digits exponent).1
  have positive : (0 : ℚ) < 10 ^ (-308 : ℤ) := zpow_pos (by norm_num) _
  generalize magnitude (ofDecimal negative digits exponent) = m at *
  cases reads with
  | zero none =>
    rw [none, Nat.cast_zero, zero_mul] at least
    exact absurd least (not_le.2 positive)
  | large => exact absurd finite (Nat.lt_irrefl _)
  | small below => exact absurd least (not_le.2 (digits_mul_lt (by omega)))
  | nearest positive quotient =>
    rw [← quotient]
    exact close_nearest positive finite

end Double

/-- What is read of a numeral within bounds is close to its value. -/
theorem Numeral.close_toNumber (negative : Bool) {n : Numeral}
    (least : (10 : ℚ) ^ (-308 : ℤ) ≤ n.value) (most : n.value ≤ Double.greatestWritten) :
    Double.Close (Double.magnitude (n.toNumber negative)) n.value :=
  Double.close_ofDecimal least most

end LineBasic
