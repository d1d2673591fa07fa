import LineBasic.Proofs.Number.Nearest
import LineBasic.Proofs.Number.Value

/-!
# Rounding to doubles

A value is rounded to the double nearest to it. Where two are equally near, it is the one with the
even mantissa. The infinities count as the double that would follow the greatest, so the values from
half way to it on (`Double.overflow`) are rounded to them. A zero has a sign as every double has.

`Double.Rounds` says this of magnitudes, `Number.Nearest` of doubles. Neither says how the double is
found; what is read of a decimal is shown to be it.

Results:
1. `Double.units_succ`, `Double.units_strictMono`: the order of magnitudes is that of their values.
2. `Double.rounds_nearest`: the magnitude nearest to a quotient.
3. `Double.Rounds.lt_infinity_iff`: what is rounded to an infinity.
4. `Double.rounds_ofDecimal`: a decimal is read as what it is rounded to.
5. `Double.Rounds.nearest`, `Number.Nearest.unique`: a magnitude and a sign give the one double.
-/

namespace LineBasic

namespace Double

/-! ## 1. The order of magnitudes -/

/-- The units of a magnitude are a mantissa, scaled by a power of two. -/
theorem units_eq_mul (m : ℕ) : ∃ mantissa < 2 ^ 53, units m = mantissa * 2 ^ shift m := by
  refine ⟨_, ?_, rfl⟩
  have size : mantissaSize = 4503599627370496 := rfl
  rw [shift, size]
  omega

/-- The next magnitude has as many units more as the mantissa is scaled by. -/
theorem units_succ (m : ℕ) : units (m + 1) = units m + 2 ^ shift m := by
  have size : mantissaSize = 4503599627370496 := rfl
  rw [units, units, Nat.pow_eq, Nat.pow_eq]
  rcases Nat.lt_or_ge (shift m) (shift (m + 1)) with carried | same
  · -- The mantissa begins anew, at the next exponent.
    have next : shift (m + 1) = shift m + 1 := by
      rw [shift, shift, size] at *
      omega
    have first : m + 1 - shift (m + 1) * mantissaSize = 4503599627370496 := by
      rw [shift, shift, size] at *
      omega
    have last : m - shift m * mantissaSize = 9007199254740991 := by
      rw [shift, shift, size] at *
      omega
    rw [first, last, next, Nat.pow_succ]
    omega
  · have next : shift (m + 1) = shift m := by
      rw [shift, shift, size] at *
      omega
    have mantissa : m + 1 - shift m * mantissaSize = m - shift m * mantissaSize + 1 := by
      rw [shift, size]
      omega
    rw [next, mantissa, Nat.add_mul, Nat.one_mul]

theorem units_strictMono : StrictMono units :=
  strictMono_nat_of_lt_succ fun m => by
    rw [units_succ]
    exact Nat.lt_add_of_pos_right (Nat.two_pow_pos _)

/-- A magnitude has a multiple of a power of two as its units, or less than the mantissas have that
are scaled by this power. -/
theorem units_grid (m s : ℕ) : (∃ j, units m = j * 2 ^ s) ∨ units m < 2 ^ 52 * 2 ^ s := by
  obtain ⟨mantissa, small, value⟩ := units_eq_mul m
  rcases Nat.lt_or_ge (shift m) s with below | above
  · right
    calc units m = mantissa * 2 ^ shift m := value
      _ < 2 ^ 53 * 2 ^ shift m := Nat.mul_lt_mul_of_pos_right small (Nat.two_pow_pos _)
      _ = 2 ^ 52 * 2 ^ (shift m + 1) := by rw [← Nat.pow_add, ← Nat.pow_add]; congr 1; omega
      _ ≤ 2 ^ 52 * 2 ^ s := Nat.mul_le_mul_left _ (Nat.pow_le_pow_right (by decide) below)
  · left
    refine ⟨mantissa * 2 ^ (shift m - s), ?_⟩
    rw [value, Nat.mul_assoc, ← Nat.pow_add, Nat.sub_add_cancel above]

theorem units_infinity : units infinity = 2 ^ 52 * 2 ^ (largestShift + 1) := by decide +kernel

/-- The value of a magnitude. The infinities count as the double that would follow the greatest. -/
def size (m : ℕ) : ℚ := units m / unitsPerOne

theorem size_strictMono : StrictMono size := fun _ _ less =>
  div_lt_div_of_pos_right (Nat.cast_lt.2 (units_strictMono less)) cast_unitsPerOne_pos

/-! ## 2. Rounding to a magnitude -/

/-- A value is rounded to a magnitude if every other is further off, or as far off and this one is
even. -/
structure Rounds (q : ℚ) (m : ℕ) : Prop where
  within : m ≤ infinity
  best : ∀ k ≤ infinity, k ≠ m →
    |size m - q| < |size k - q| ∨ |size m - q| = |size k - q| ∧ Even m

namespace RoundedLemmas

/-- Of two values, the greater is nearer to what is above the middle. -/
theorem abs_sub_lt_iff {a b q : ℚ} (less : a < b) : |b - q| < |a - q| ↔ a + b < 2 * q := by
  have factors : (a - q) ^ 2 - (b - q) ^ 2 = (b - a) * (2 * q - (a + b)) := by ring
  rw [← sq_lt_sq, ← sub_pos, factors, mul_pos_iff_of_pos_left (sub_pos.2 less), sub_pos]

theorem abs_sub_le_iff {a b q : ℚ} (less : a < b) : |b - q| ≤ |a - q| ↔ a + b ≤ 2 * q := by
  have factors : (a - q) ^ 2 - (b - q) ^ 2 = (b - a) * (2 * q - (a + b)) := by ring
  rw [← sq_le_sq, ← sub_nonneg, factors, mul_nonneg_iff_of_pos_left (sub_pos.2 less), sub_nonneg]

/-- Distances can be told in units. -/
theorem abs_size_sub (m : ℕ) (u : ℚ) :
    |size m - u / unitsPerOne| = |(units m : ℚ) - u| / unitsPerOne := by
  rw [size, ← sub_div, abs_div, Nat.abs_cast]

end RoundedLemmas

open RoundedLemmas

/-- No magnitude is nearer. -/
theorem Rounds.near {q : ℚ} {m k : ℕ} (rounds : Rounds q m) (within : k ≤ infinity) :
    |size m - q| ≤ |size k - q| := by
  by_cases same : k = m
  · rw [same]
  · exact (rounds.best k within same).elim le_of_lt fun tie => le_of_eq tie.1

/-- Zero is even. -/
theorem Rounds.even_of_zero {m : ℕ} (rounds : Rounds 0 m) : Even m := by
  by_cases zero : m = 0
  · rw [zero]
    exact Even.zero
  · have none : size 0 = 0 := zero_div _
    have best := rounds.best 0 (Nat.zero_le _) (Ne.symm zero)
    rw [none, sub_zero, sub_zero, abs_zero] at best
    exact best.elim (fun below => absurd below (not_lt.2 (abs_nonneg _))) And.right

/-- Between two even magnitudes that are equally far off there is one that is nearer. -/
theorem nearer_between {p : ℚ} {a b : ℕ} (less : a < b) (even : Even a) (even' : Even b)
    (tie : |size a - p| = |size b - p|) : a + 1 < b ∧ |size (a + 1) - p| < |size a - p| := by
  have between : a + 1 < b := by
    rw [Nat.even_iff] at even even'
    omega
  have middle := (abs_sub_le_iff (size_strictMono less)).1 (le_of_eq tie.symm)
  refine ⟨between, (abs_sub_lt_iff (size_strictMono (Nat.lt_succ_self a))).2 ?_⟩
  linarith only [size_strictMono between, middle]

/-- A value may be given in units. -/
theorem Rounds.of_units {u : ℚ} {m : ℕ} (within : m ≤ infinity)
    (best : ∀ k, k ≠ m → |(units m : ℚ) - u| < |(units k : ℚ) - u| ∨
      |(units m : ℚ) - u| = |(units k : ℚ) - u| ∧ Even m) : Rounds (u / unitsPerOne) m := by
  refine ⟨within, fun k _ other => ?_⟩
  rw [abs_size_sub, abs_size_sub]
  refine (best k other).imp (fun nearer => ?_) fun tie => ⟨by rw [tie.1], tie.2⟩
  exact div_lt_div_of_pos_right nearer cast_unitsPerOne_pos

/-- What is less than half a unit is rounded to zero. -/
theorem rounds_zero {u : ℚ} (least : 0 ≤ u) (most : 2 * u < 1) : Rounds (u / unitsPerOne) 0 := by
  refine .of_units (Nat.zero_le _) fun k other => .inl ?_
  have none : units 0 = 0 := rfl
  have some : (1 : ℚ) ≤ units k := by
    exact_mod_cast Nat.zero_lt_of_lt (units_strictMono (Nat.pos_of_ne_zero other))
  have above : u ≤ units k := by linarith only [some, most, least]
  rw [none, Nat.cast_zero, zero_sub, abs_neg, abs_of_nonneg least,
    abs_of_nonneg (sub_nonneg.2 above)]
  linarith only [some, most]

/-- What is above all doubles is rounded to an infinity. -/
theorem rounds_infinity {q : ℚ} (above : size infinity ≤ q) : Rounds q infinity := by
  refine ⟨Nat.le_refl _, fun k within other => .inl (lt_of_not_ge fun near => ?_)⟩
  have less := size_strictMono (lt_of_le_of_ne within other)
  rw [abs_of_nonpos (by linarith), abs_of_nonpos (by linarith)] at near
  linarith

/-- A mantissa that a scaled value is rounded to gives the magnitude that the value is rounded
to. -/
theorem rounds_mantissa {x : ℚ} {s mantissa m : ℕ} (within : m ≤ infinity)
    (value : units m = mantissa * 2 ^ s) (rounded : (mantissa : ℤ) = Decimal.nearestWhole x)
    (normal : s = 0 ∨ 2 ^ 52 ≤ x) (parity : Even mantissa → Even m) :
    Rounds (x * 2 ^ s / unitsPerOne) m := by
  have scale : (0 : ℚ) < 2 ^ s := pow_pos two_pos s
  have scaled (j : ℕ) : |((j * 2 ^ s : ℕ) : ℚ) - x * 2 ^ s| = |(j : ℚ) - x| * 2 ^ s := by
    rw [Nat.cast_mul, Nat.cast_pow, Nat.cast_ofNat, ← sub_mul, abs_mul, abs_of_pos scale]
  -- Among the multiples of the scale, the rounded mantissa is the best.
  have onGrid (j : ℕ) (other : j ≠ mantissa) :
      |(units m : ℚ) - x * 2 ^ s| < |((j * 2 ^ s : ℕ) : ℚ) - x * 2 ^ s| ∨
        |(units m : ℚ) - x * 2 ^ s| = |((j * 2 ^ s : ℕ) : ℚ) - x * 2 ^ s| ∧ Even m := by
    have other' : (j : ℤ) ≠ Decimal.nearestWhole x := by
      rw [← rounded]
      exact_mod_cast other
    have best := Decimal.nearestWhole_best other'
    rw [← rounded, Int.cast_natCast, Int.cast_natCast, Int.even_coe_nat] at best
    rw [value, scaled, scaled]
    refine best.imp (fun nearer => ?_) fun tie => ⟨by rw [tie.1], parity tie.2⟩
    exact mul_lt_mul_of_pos_right nearer scale
  refine .of_units within fun k other => ?_
  have grid : (∃ j, units k = j * 2 ^ s) ∨ (2 ^ 52 ≤ x ∧ units k < 2 ^ 52 * 2 ^ s) := by
    rcases normal with rfl | normal
    · exact .inl ⟨units k, (Nat.mul_one _).symm⟩
    · exact (units_grid k s).imp_right fun below => ⟨normal, below⟩
  rcases grid with ⟨j, onIt⟩ | ⟨normal, below⟩
  · have different : j ≠ mantissa := by
      rintro rfl
      exact other (units_strictMono.injective (onIt.trans value.symm))
    rw [onIt]
    exact onGrid j different
  · -- Everything below the grid is further off than the first mantissa on it.
    have least : |(units m : ℚ) - x * 2 ^ s| ≤ |((2 ^ 52 * 2 ^ s : ℕ) : ℚ) - x * 2 ^ s| := by
      by_cases first : 2 ^ 52 = mantissa
      · rw [value, ← first]
      · exact (onGrid _ first).elim le_of_lt fun tie => le_of_eq tie.1
    refine .inl (lt_of_le_of_lt least ?_)
    have below' : (units k : ℚ) < 2 ^ 52 * 2 ^ s := by exact_mod_cast below
    have above : (2 : ℚ) ^ 52 * 2 ^ s ≤ x * 2 ^ s :=
      mul_le_mul_of_nonneg_right normal (le_of_lt scale)
    rw [Nat.cast_mul, Nat.cast_pow, Nat.cast_pow, Nat.cast_ofNat, abs_of_nonpos (sub_nonpos.2 above),
      abs_of_neg (by linarith)]
    linarith

variable {num den : ℕ}

/-- A quotient whose mantissa would need too great an exponent is above all doubles. -/
theorem size_infinity_le {shift : ℕ} (positive : 0 < den) (far : largestShift < shift)
    (large : den * 2 ^ shift * 2 ^ 52 ≤ num * unitsPerOne) : size infinity ≤ num / den := by
  have grows : units infinity ≤ 2 ^ 52 * 2 ^ shift :=
    units_infinity.trans_le (Nat.mul_le_mul (Nat.le_refl _) (Nat.pow_le_pow_right (by decide) far))
  have above : units infinity * den ≤ num * unitsPerOne :=
    calc units infinity * den ≤ 2 ^ 52 * 2 ^ shift * den := Nat.mul_le_mul_right den grows
      _ = den * 2 ^ shift * 2 ^ 52 := by ring
      _ ≤ num * unitsPerOne := large
  rw [size, div_le_div_iff₀ cast_unitsPerOne_pos (Nat.cast_pos.2 positive)]
  exact_mod_cast above

/-- The nearest magnitude is the one that the quotient is rounded to. -/
theorem rounds_nearest (positive : 0 < den) : Rounds (num / den) (nearest num den) := by
  obtain ⟨shift, mantissa, value, rounded, most, normal⟩ := @nearest_eq num den positive
  have width : mantissaSize = 4503599627370496 := rfl
  have top : infinity = 2047 * 4503599627370496 := rfl
  rw [value]
  rcases Nat.lt_or_ge infinity (shift * mantissaSize + mantissa) with above | within
  · have far : largestShift < shift := by
      rw [largestShift]
      rw [width, top] at above
      omega
    rw [Nat.min_eq_right (Nat.le_of_lt above)]
    have large := (normal.resolve_left (Nat.ne_zero_of_lt far)).2
    exact rounds_infinity (size_infinity_le positive far large)
  · have unit : 0 < den * 2 ^ shift := Nat.mul_pos positive (Nat.two_pow_pos shift)
    have quotient : (num / den : ℚ) =
        (num * unitsPerOne : ℕ) / (den * 2 ^ shift : ℕ) * 2 ^ shift / unitsPerOne := by
      have whole : (den : ℚ) ≠ 0 := Nat.cast_ne_zero.2 (Nat.ne_of_gt positive)
      have one := ne_of_gt cast_unitsPerOne_pos
      push_cast
      field_simp
    rw [Nat.min_eq_left within, quotient]
    refine rounds_mantissa within (units_of_mantissa most (normal.imp_right And.left)) ?_ ?_ ?_
    · rw [rounded, Decimal.roundDiv_eq _ unit]
    · refine normal.imp_right fun large => ?_
      rw [le_div_iff₀ (Nat.cast_pos.2 unit)]
      exact_mod_cast (Nat.mul_comm _ _).trans_le large.2
    · have even : Even mantissaSize := by decide
      exact fun half => (even.mul_left shift).add half

/-! ## 3. What is too large -/

/-- Half way between the greatest double and the one that would follow it. -/
def overflow : ℕ := 2 ^ 1024 - 2 ^ 970

theorem size_add_size : size (infinity - 1) + size infinity = 2 * overflow := by
  have middle : units (infinity - 1) + units infinity = 2 * overflow * unitsPerOne := by
    decide +kernel
  rw [size, size, ← add_div, ← Nat.cast_add, middle, Nat.cast_mul,
    mul_div_cancel_right₀ _ (ne_of_gt cast_unitsPerOne_pos), Nat.cast_mul, Nat.cast_ofNat]

/-- What is rounded to an infinity: everything from the middle on, as the greatest double is odd. -/
theorem Rounds.lt_infinity_iff {q : ℚ} {m : ℕ} (rounds : Rounds q m) :
    m < infinity ↔ q < overflow := by
  have last : infinity - 1 < infinity := by decide
  have odd : ¬ Even (infinity - 1) := by decide
  have middle := size_add_size
  constructor
  · intro finite
    refine lt_of_not_ge fun above => ?_
    rcases Nat.lt_or_eq_of_le (Nat.le_sub_one_of_lt finite) with less | greatest
    · have further : |size infinity - q| < |size m - q| := by
        rw [abs_sub_lt_iff (size_strictMono finite)]
        linarith only [size_strictMono less, middle, above]
      exact absurd (rounds.near (Nat.le_refl _)) (not_le.2 further)
    · have near : |size infinity - q| ≤ |size m - q| := by
        rw [abs_sub_le_iff (size_strictMono finite), greatest]
        linarith only [middle, above]
      rcases rounds.best infinity (Nat.le_refl _) (Nat.ne_of_gt finite) with nearer | ⟨_, even⟩
      · exact not_lt.2 near nearer
      · exact odd (greatest ▸ even)
  · intro below
    refine lt_of_le_of_ne rounds.within fun full => ?_
    subst full
    have near := rounds.near (Nat.le_of_lt last)
    rw [abs_sub_le_iff (size_strictMono last)] at near
    linarith only [near, middle, below]

/-! ## 4. Decimals -/

/-- A decimal is read as the magnitude that it is rounded to. -/
theorem Reads.rounds {digits : ℕ} {exponent : ℤ} {m : ℕ} (reads : Reads digits exponent m) :
    Rounds (digits * 10 ^ exponent) m := by
  cases reads with
  | zero none =>
    rw [none, Nat.cast_zero, zero_mul, ← zero_div (unitsPerOne : ℚ)]
    exact rounds_zero le_rfl (by norm_num)
  | large some above =>
    have most : units infinity ≤ 10 ^ 311 * unitsPerOne := by decide +kernel
    have least : (1 : ℚ) ≤ digits := Nat.one_le_cast.2 (Nat.pos_of_ne_zero some)
    refine rounds_infinity ?_
    calc size infinity ≤ 10 ^ (311 : ℤ) := by
          rw [size, div_le_iff₀ cast_unitsPerOne_pos]
          exact_mod_cast most
      _ ≤ 10 ^ exponent := zpow_le_zpow_right₀ (by norm_num) above
      _ ≤ digits * 10 ^ exponent := le_mul_of_one_le_left (zpow_nonneg (by norm_num) _) least
  | small below =>
    have most : 2 * unitsPerOne ≤ 10 ^ 330 := by decide +kernel
    have most' : (2 * unitsPerOne : ℚ) ≤ 10 ^ (330 : ℤ) := by exact_mod_cast most
    have least : (0 : ℚ) ≤ digits * 10 ^ exponent :=
      mul_nonneg (Nat.cast_nonneg _) (zpow_nonneg (by norm_num) _)
    have tiny : (digits : ℚ) * 10 ^ exponent < 10 ^ (-330 : ℤ) := digits_mul_lt (by omega)
    rw [← mul_div_cancel_right₀ ((digits : ℚ) * 10 ^ exponent) (ne_of_gt cast_unitsPerOne_pos)]
    refine rounds_zero (mul_nonneg least (le_of_lt cast_unitsPerOne_pos)) ?_
    calc 2 * ((digits : ℚ) * 10 ^ exponent * unitsPerOne)
        = digits * 10 ^ exponent * (2 * unitsPerOne) := by ring
      _ ≤ digits * 10 ^ exponent * 10 ^ (330 : ℤ) := mul_le_mul_of_nonneg_left most' least
      _ < 10 ^ (-330 : ℤ) * 10 ^ (330 : ℤ) :=
          mul_lt_mul_of_pos_right tiny (zpow_pos (by norm_num) _)
      _ = 1 := by rw [← zpow_add₀ (by norm_num), neg_add_cancel, zpow_zero]
  | nearest positive quotient => exact quotient ▸ rounds_nearest positive

/-- The magnitude that is read of a decimal is the one that its value is rounded to. -/
theorem rounds_ofDecimal (negative : Bool) (digits : ℕ) (exponent : ℤ) :
    Rounds (digits * 10 ^ exponent) (magnitude (ofDecimal negative digits exponent)) :=
  (ofDecimal_spec negative digits exponent).1.rounds

end Double

/-! ## 5. Rounding to a double -/

/-- A value is rounded to the double that is nearest to it. Where another double is as near, it is
the one whose magnitude is even. From half way beyond the greatest double on it is an infinity. -/
structure Number.Nearest (q : ℚ) (x : Number) : Prop where
  finite : x.isFinite = true ↔ |q| < Double.overflow
  infinite : x.isFinite = false → x.isInf = true
  best : x.isFinite = true → ∀ y : Number, y.isFinite = true → y.value ≠ x.value →
    |x.value - q| < |y.value - q| ∨ |x.value - q| = |y.value - q| ∧ Even (Double.magnitude x)

namespace Double

/-- The infinities are the doubles with their magnitude. -/
theorem isInf_iff (x : Number) : x.isInf = true ↔ magnitude x = infinity := by
  have parts := unpacked x
  change x.toModel.unpack.isInf = true ↔ _
  generalize x.toModel.unpack = u at *
  cases parts with
  | notANumber above => exact iff_of_false (by decide) (Nat.ne_of_gt above)
  | infinity full => exact iff_of_true rfl full
  | zero empty => exact iff_of_false Bool.false_ne_true (by rw [empty]; decide)
  | finite _ _ below => exact iff_of_false Bool.false_ne_true (Nat.ne_of_lt below)

/-- A double is given by its sign and its magnitude. -/
theorem eq_of_magnitude_eq {x y : Number} (sign : isNegative x = isNegative y)
    (magnitude : magnitude x = magnitude y) : x = y := by
  have bits : x.toBits = y.toBits := by
    refine UInt64.toNat_inj.1 ?_
    have width := x.toBits.toNat_lt
    have width' := y.toBits.toNat_lt
    have bit : signBit = 0x8000000000000000 := rfl
    rw [isNegative, isNegative, decide_eq_decide, bit] at sign
    rw [Double.magnitude, Double.magnitude, bit] at magnitude
    omega
  rw [← Float.ofBits_toBits x, bits, Float.ofBits_toBits]

end Double

open Double RoundedLemmas

namespace Number

variable {x y : Number} {q : ℚ}

/-- How far a double is from a value can be told without its sign. -/
theorem abs_value_sub (finite : x.isFinite = true) (q : ℚ) :
    |x.value - q| = |size (magnitude x) - if isNegative x then -q else q| := by
  rw [value_eq finite, ← size]
  split
  · rw [← abs_neg]
    congr 1
    ring
  · rw [one_mul]

theorem value_ne_of_magnitude_ne (finite : x.isFinite = true) (finite' : y.isFinite = true)
    (differ : magnitude x ≠ magnitude y) : x.value ≠ y.value := by
  intro same
  have sizes : size (magnitude x) = size (magnitude y) :=
    (abs_value finite).symm.trans ((congrArg abs same).trans (abs_value finite'))
  exact differ (size_strictMono.injective sizes)

end Number

/-- A magnitude that a value is rounded to belongs, with a sign, to the double that the value with
this sign is rounded to. -/
theorem Double.Rounds.nearest {p : ℚ} {x : Number} (least : 0 ≤ p)
    (rounds : Rounds p (magnitude x)) : x.Nearest (if isNegative x then -p else p) := by
  have abs : |if isNegative x then -p else p| = p := by
    split
    · rw [abs_neg, abs_of_nonneg least]
    · exact abs_of_nonneg least
  have twice : (if isNegative x then -(if isNegative x then -p else p)
      else if isNegative x then -p else p) = p := by
    split <;> simp
  constructor
  · rw [abs, isFinite_iff, rounds.lt_infinity_iff]
  · intro infinite
    rw [isInf_iff]
    refine Nat.le_antisymm rounds.within (Nat.le_of_not_lt fun below => ?_)
    rw [(isFinite_iff x).2 below] at infinite
    cases infinite
  · intro finite y finite' other
    have here := Number.abs_value_sub finite (if isNegative x then -p else p)
    rw [twice] at here
    have there := abs_abs_sub_abs_le_abs_sub y.value (if isNegative x then -p else p)
    rw [abs, Number.abs_value finite', ← size] at there
    rw [here]
    by_cases same : magnitude y = magnitude x
    · -- Only the double with the other sign has this magnitude; it is as near if the value is zero.
      have opposite : y.value = -x.value := by
        refine (abs_eq_abs.1 ?_).resolve_left other
        rw [Number.abs_value finite, Number.abs_value finite', same]
      rw [same] at there
      refine (lt_or_eq_of_le there).imp_right fun tie => ⟨tie, ?_⟩
      rw [← here, opposite] at tie
      rcases abs_eq_abs.1 tie with zero | zero
      · exact absurd (by linarith) other
      · have none : (if isNegative x then -p else p) = 0 := by linarith
        rw [none, abs_zero] at abs
        rw [← abs] at rounds
        exact rounds.even_of_zero
    · have within := Nat.le_of_lt ((isFinite_iff y).1 finite')
      rcases rounds.best _ within same with nearer | tie
      · exact .inl (nearer.trans_le there)
      · exact (lt_or_eq_of_le (tie.1.trans_le there)).imp_right fun equal => ⟨equal, tie.2⟩

namespace Number.Nearest

variable {q : ℚ} {x y : Number}

/-- No double is nearer. -/
theorem near (nearest : x.Nearest q) (finite : x.isFinite = true) (finite' : y.isFinite = true) :
    |x.value - q| ≤ |y.value - q| := by
  by_cases same : y.value = x.value
  · rw [same]
  · exact (nearest.best finite y finite' same).elim le_of_lt fun tie => le_of_eq tie.1

/-- If a double with another value is as near, both are even. -/
theorem even_of_tie (nearest : x.Nearest q) (finite : x.isFinite = true)
    (finite' : y.isFinite = true) (differ : y.value ≠ x.value)
    (tie : |x.value - q| = |y.value - q|) : Even (magnitude x) :=
  ((nearest.best finite y finite' differ).resolve_left (not_lt_of_ge (le_of_eq tie.symm))).2

/-- There is one double with a given sign that is nearest to a value. -/
theorem unique (nearest : x.Nearest q) (nearest' : y.Nearest q)
    (sign : isNegative x = isNegative y) : x = y := by
  refine eq_of_magnitude_eq sign ?_
  cases finite : x.isFinite with
  | false =>
    have finite' : y.isFinite = false := by
      rw [Bool.eq_false_iff, Ne, nearest'.finite, ← nearest.finite, finite]
      decide
    rw [(isInf_iff x).1 (nearest.infinite finite), (isInf_iff y).1 (nearest'.infinite finite')]
  | true =>
    have finite' : y.isFinite = true := by rwa [nearest'.finite, ← nearest.finite]
    by_contra differ
    wlog less : magnitude x < magnitude y generalizing x y
    · exact this nearest' nearest sign.symm finite' finite (Ne.symm differ)
        (Nat.lt_of_le_of_ne (Nat.le_of_not_lt less) (Ne.symm differ))
    have values := value_ne_of_magnitude_ne finite finite' differ
    -- Each is as near as the other, so both are even and there is a double between them.
    have tie := le_antisymm (nearest.near finite finite') (nearest'.near finite' finite)
    have even := nearest.even_of_tie finite finite' values.symm tie
    have even' := nearest'.even_of_tie finite' finite values tie.symm
    rw [abs_value_sub finite, abs_value_sub finite', ← sign] at tie
    obtain ⟨between, nearer⟩ := nearer_between less even even' tie
    have below := (isFinite_iff y).1 finite'
    have within : magnitude x + 1 ≤ infinity := by omega
    have middle := @magnitude_ofMagnitude (isNegative x) _ within
    have side := @isNegative_ofMagnitude (isNegative x) _ within
    generalize ofMagnitude (isNegative x) (magnitude x + 1) = z at middle side
    have finite'' : z.isFinite = true := (isFinite_iff z).2 (by omega)
    rw [← middle, ← side, ← abs_value_sub finite'', side, ← abs_value_sub finite] at nearer
    exact absurd (nearest.near finite finite'') (not_le.2 nearer)

end Number.Nearest

theorem Numeral.value_nonneg (n : Numeral) : 0 ≤ n.value :=
  mul_nonneg (Nat.cast_nonneg _) (zpow_nonneg (by norm_num) _)

/-- A numeral is read as the double that its value, with its sign, is rounded to. -/
theorem Numeral.nearest_toNumber (negative : Bool) (n : Numeral) :
    (n.toNumber negative).Nearest (n.signedValue negative) := by
  have rounded := Rounds.nearest n.value_nonneg (rounds_ofDecimal negative _ _)
  rwa [(ofDecimal_spec negative _ _).2] at rounded

end LineBasic
