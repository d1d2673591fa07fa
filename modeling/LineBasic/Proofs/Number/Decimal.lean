import LineBasic.Number.Rounding
import Mathlib

/-!
# Rounding to decimal places and digits

What rounding means, said of rational numbers and without any regard to how it is worked out.
`nearestWhole` takes a half to the even neighbour, `atPlaces` rounds to a number of places behind
the point, and `toSixDigits` to as many places as there have to be for six significant digits.

How many places these are is told by the first digit of what is rounded. Rounding may carry into a
digit in front of it (`9.999995` becomes `10`), and then there are fewer places. That makes no
difference: to round again, to the places that belong to the result, comes to the same.

Results:
1. `eq_nearestWhole`: what is nearest, and even where two are, is the rounded number.
2. `atPlaces_toSixDigits`: rounding again at the places of the result comes to the same.
3. `toSixDigits_of_near`: what is near to a value of six digits is rounded to it.
-/

namespace LineBasic

namespace Decimal

/-! ## 1. Whole numbers -/

/-- The whole number nearest to a value; a half goes to the even neighbour. -/
def nearestWhole (q : ℚ) : ℤ :=
  if Int.fract q < 1 / 2 ∨ Int.fract q = 1 / 2 ∧ Even ⌊q⌋ then ⌊q⌋ else ⌊q⌋ + 1

variable {q : ℚ} {z : ℤ}

theorem abs_sub_nearestWhole_le (q : ℚ) : |q - nearestWhole q| ≤ 1 / 2 := by
  have split := Int.floor_add_fract q
  have least := Int.fract_nonneg q
  have most := Int.fract_lt_one q
  rw [abs_le]
  unfold nearestWhole
  split
  next below =>
    have half : Int.fract q ≤ 1 / 2 := below.elim le_of_lt fun tie => le_of_eq tie.1
    constructor <;> linarith
  next notBelow =>
    have half : 1 / 2 ≤ Int.fract q := not_lt.1 fun h => notBelow (.inl h)
    push_cast
    constructor <;> linarith

theorem even_nearestWhole (tie : |q - nearestWhole q| = 1 / 2) : Even (nearestWhole q) := by
  have split := Int.floor_add_fract q
  have most := Int.fract_lt_one q
  have least := Int.fract_nonneg q
  unfold nearestWhole at tie ⊢
  split at tie
  next below =>
    rw [if_pos below]
    rcases below with below | tied
    · rw [abs_of_nonneg (by linarith)] at tie
      linarith
    · exact tied.2
  next notBelow =>
    rw [if_neg notBelow]
    push_cast at tie
    rw [abs_of_nonpos (by linarith)] at tie
    have half : Int.fract q = 1 / 2 := by linarith
    exact (Int.not_even_iff_odd.1 fun even => notBelow (.inr ⟨half, even⟩)).add_one

/-- What is nearest, and even where two are, is the rounded number. -/
theorem eq_nearestWhole (near : |q - z| ≤ 1 / 2) (even : |q - z| = 1 / 2 → Even z) :
    nearestWhole q = z := by
  have near' := abs_sub_nearestWhole_le q
  by_contra differ
  have apart : (1 : ℚ) ≤ |(nearestWhole q : ℚ) - z| := by
    exact_mod_cast Int.one_le_abs (sub_ne_zero.2 differ)
  have triangle := abs_sub_le (nearestWhole q : ℚ) q z
  rw [abs_sub_comm _ q] at triangle
  -- Two whole numbers that are both nearest are neighbours, and not both even.
  have even' := even_nearestWhole (q := q) (by linarith)
  have together := (even'.sub (even (by linarith))).two_dvd
  have one : |nearestWhole q - z| = 1 := by
    have : |(nearestWhole q : ℚ) - z| = 1 := by linarith
    exact_mod_cast this
  rw [← dvd_abs, one] at together
  exact absurd together (by decide)

theorem nearestWhole_of_near (near : |q - z| < 1 / 2) : nearestWhole q = z :=
  eq_nearestWhole (le_of_lt near) fun tie => absurd tie (ne_of_lt near)

/-- Every other whole number is further off than the rounded one, or as far off and odd. -/
theorem nearestWhole_best (other : z ≠ nearestWhole q) :
    |(nearestWhole q : ℚ) - q| < |(z : ℚ) - q| ∨
      |(nearestWhole q : ℚ) - q| = |(z : ℚ) - q| ∧ Even (nearestWhole q) := by
  have near := abs_sub_nearestWhole_le q
  have apart : (1 : ℚ) ≤ |(nearestWhole q : ℚ) - z| := by
    exact_mod_cast Int.one_le_abs (sub_ne_zero.2 other.symm)
  have triangle := abs_sub_le (nearestWhole q : ℚ) q z
  rw [abs_sub_comm q] at near
  rw [abs_sub_comm q] at triangle
  rcases lt_or_eq_of_le (show |(nearestWhole q : ℚ) - q| ≤ |(z : ℚ) - q| by linarith)
    with nearer | tie
  · exact .inl nearer
  · refine .inr ⟨tie, even_nearestWhole ?_⟩
    rw [abs_sub_comm]
    linarith

theorem nearestWhole_neg (q : ℚ) : nearestWhole (-q) = -nearestWhole q := by
  have mirrored : |-q - (-nearestWhole q : ℤ)| = |q - nearestWhole q| := by
    rw [← abs_neg]
    push_cast
    congr 1
    ring
  refine eq_nearestWhole ?_ fun tie => ?_
  · rw [mirrored]
    exact abs_sub_nearestWhole_le q
  · rw [mirrored] at tie
    exact (even_nearestWhole tie).neg

/-- The quotient that `roundDiv` rounds is rounded in this way. -/
theorem roundDiv_eq (a : ℕ) {b : ℕ} (positive : 0 < b) :
    (roundDiv a b : ℤ) = nearestWhole (a / b : ℚ) := by
  have size : (0 : ℚ) < b := by exact_mod_cast positive
  have floor : ⌊(a / b : ℚ)⌋ = (a / b : ℕ) := by
    rw [Rat.floor_natCast_div_natCast]
    rfl
  have fract : Int.fract (a / b : ℚ) = (a % b : ℕ) / b := Int.fract_div_natCast_eq_div_natCast_mod
  have below : Int.fract (a / b : ℚ) < 1 / 2 ↔ 2 * (a % b) < b := by
    rw [fract, div_lt_div_iff₀ size two_pos]
    norm_cast
    omega
  have tied : Int.fract (a / b : ℚ) = 1 / 2 ↔ 2 * (a % b) = b := by
    rw [fract, div_eq_div_iff (ne_of_gt size) two_ne_zero]
    norm_cast
    omega
  have even : Even ((a / b : ℕ) : ℤ) ↔ a / b % 2 = 0 := by rw [Int.even_coe_nat, Nat.even_iff]
  simp only [nearestWhole, below, tied, floor, even, roundDiv]
  rcases Nat.lt_trichotomy (2 * (a % b)) b with less | tie | more
  · simp [less]
  · by_cases even : a / b % 2 = 0 <;> simp [tie, even]
  · simp [more, Nat.not_lt_of_gt more, Nat.ne_of_gt more]

/-! ## 2. Places and digits -/

/-- The power of ten of the first digit. -/
def leading (q : ℚ) : ℤ := Int.log 10 |q|

/-- Rounded to a number of places behind the point. -/
def atPlaces (places : ℤ) (q : ℚ) : ℚ := nearestWhole (q * 10 ^ places) / 10 ^ places

/-- Rounded to six significant digits. -/
def toSixDigits (q : ℚ) : ℚ := atPlaces (5 - leading q) q

theorem leading_spec (nonzero : q ≠ 0) :
    (10 : ℚ) ^ leading q ≤ |q| ∧ |q| < 10 ^ (leading q + 1) :=
  ⟨by exact_mod_cast Int.zpow_log_le_self (b := 10) (by decide) (abs_pos.2 nonzero),
    by exact_mod_cast Int.lt_zpow_succ_log_self (b := 10) (by decide) |q|⟩

theorem le_leading {k : ℤ} (least : (10 : ℚ) ^ k ≤ |q|) : k ≤ leading q := by
  have positive : 0 < |q| := lt_of_lt_of_le (zpow_pos (by norm_num) k) least
  have most := (leading_spec (abs_pos.1 positive)).2
  exact Int.lt_add_one_iff.1
    ((zpow_lt_zpow_iff_right₀ (by norm_num)).1 (lt_of_le_of_lt least most))

theorem leading_eq {k : ℤ} (least : (10 : ℚ) ^ k ≤ |q|) (most : |q| < 10 ^ (k + 1)) :
    leading q = k := by
  have positive : 0 < |q| := lt_of_lt_of_le (zpow_pos (by norm_num) k) least
  have first := (leading_spec (abs_pos.1 positive)).1
  have below := (zpow_lt_zpow_iff_right₀ (by norm_num)).1 (lt_of_le_of_lt first most)
  exact le_antisymm (Int.lt_add_one_iff.1 below) (le_leading least)

theorem leading_neg (q : ℚ) : leading (-q) = leading q := by rw [leading, abs_neg, leading]

theorem atPlaces_neg (places : ℤ) (q : ℚ) : atPlaces places (-q) = -atPlaces places q := by
  rw [atPlaces, neg_mul, nearestWhole_neg, Int.cast_neg, neg_div, atPlaces]

theorem toSixDigits_neg (q : ℚ) : toSixDigits (-q) = -toSixDigits q := by
  rw [toSixDigits, leading_neg, atPlaces_neg, toSixDigits]

/-- A value is rounded at places where it has six digits before the point. -/
theorem scaled_bounds (positive : 0 < q) :
    100000 ≤ q * 10 ^ (5 - leading q) ∧ q * 10 ^ (5 - leading q) < 1000000 := by
  obtain ⟨least, most⟩ := leading_spec (ne_of_gt positive)
  rw [abs_of_pos positive] at least most
  have scale : (0 : ℚ) < 10 ^ (5 - leading q) := zpow_pos (by norm_num) _
  have low := mul_le_mul_of_nonneg_right least (le_of_lt scale)
  have high := mul_lt_mul_of_pos_right most scale
  rw [← zpow_add₀ (by norm_num), show leading q + (5 - leading q) = 5 by ring] at low
  rw [← zpow_add₀ (by norm_num), show leading q + 1 + (5 - leading q) = 6 by ring] at high
  norm_num at low high
  exact ⟨low, high⟩

/-- Six digits in front of the point, or a one that has been carried in front of them. -/
theorem nearestWhole_bounds (least : 100000 ≤ q) (most : q < 1000000) :
    100000 ≤ nearestWhole q ∧ nearestWhole q ≤ 1000000 := by
  have near := abs_le.1 (abs_sub_nearestWhole_le q)
  constructor
  · have : (99999 : ℚ) < nearestWhole q := by linarith
    exact_mod_cast this
  · have : (nearestWhole q : ℚ) < 1000001 := by linarith
    exact Int.lt_add_one_iff.1 (by exact_mod_cast this)

/-- The first digit of six digits in front of the point, scaled down. -/
theorem leading_scaled {digits k : ℤ} (least : 100000 ≤ digits) (most : digits < 1000000) :
    leading (digits * 10 ^ (k - 5)) = k := by
  have least' : (100000 : ℚ) ≤ digits := by exact_mod_cast least
  have most' : (digits : ℚ) < 1000000 := by exact_mod_cast most
  have scale : (0 : ℚ) < 10 ^ (k - 5) := zpow_pos (by norm_num) _
  have low := mul_le_mul_of_nonneg_right least' (le_of_lt scale)
  have high := mul_lt_mul_of_pos_right most' scale
  rw [show (100000 : ℚ) = 10 ^ (5 : ℤ) by norm_num, ← zpow_add₀ (by norm_num),
    show 5 + (k - 5) = k by ring] at low
  rw [show (1000000 : ℚ) = 10 ^ (6 : ℤ) by norm_num, ← zpow_add₀ (by norm_num),
    show 6 + (k - 5) = k + 1 by ring] at high
  refine leading_eq ?_ ?_
  · exact low.trans (le_abs_self _)
  · rwa [abs_of_pos (lt_of_lt_of_le (zpow_pos (by norm_num) k) low)]

/-! ## 3. Near values -/

/-- Rounded to whole multiples of a power of ten. -/
theorem atPlaces_neg_eq (p : ℤ) (q : ℚ) :
    atPlaces (-p) q = nearestWhole (q * 10 ^ (-p)) * 10 ^ p := by
  rw [atPlaces, zpow_neg, div_inv_eq_mul]

theorem toSixDigits_eq (q : ℚ) :
    toSixDigits q = nearestWhole (q * 10 ^ (5 - leading q)) * 10 ^ (leading q - 5) := by
  rw [toSixDigits, show 5 - leading q = -(leading q - 5) by ring, atPlaces_neg_eq]

theorem atPlaces_of_near {p : ℤ} (near : |q - z * 10 ^ p| < 10 ^ p / 2) :
    atPlaces (-p) q = z * 10 ^ p := by
  have unit : (0 : ℚ) < 10 ^ p := zpow_pos (by norm_num) p
  have scaled : q * 10 ^ (-p) - z = (q - z * 10 ^ p) / 10 ^ p := by
    rw [zpow_neg]
    field_simp
  rw [atPlaces_neg_eq, nearestWhole_of_near]
  rwa [scaled, abs_div, abs_of_pos unit, div_lt_iff₀ unit, one_div_mul_eq_div]

theorem abs_sub_atPlaces_le (p : ℤ) (q : ℚ) : |q - atPlaces (-p) q| ≤ 10 ^ p / 2 := by
  have unit : (0 : ℚ) < 10 ^ p := zpow_pos (by norm_num) p
  have scaled : q - atPlaces (-p) q = (q * 10 ^ (-p) - nearestWhole (q * 10 ^ (-p))) * 10 ^ p := by
    rw [atPlaces_neg_eq, sub_mul, mul_assoc, ← zpow_add₀ (by norm_num), neg_add_cancel, zpow_zero,
      mul_one]
  rw [scaled, abs_mul, abs_of_pos unit]
  calc |q * 10 ^ (-p) - nearestWhole (q * 10 ^ (-p))| * 10 ^ p ≤ 1 / 2 * 10 ^ p :=
        mul_le_mul_of_nonneg_right (abs_sub_nearestWhole_le _) (le_of_lt unit)
    _ = 10 ^ p / 2 := by ring

/-- What is near to a value of six digits is rounded to it, also from below a power of ten, where
the digits lie closer together. -/
theorem toSixDigits_of_near {digits k : ℤ} (least : 100000 ≤ digits) (most : digits < 1000000)
    (near : |q - digits * 10 ^ (k - 5)| < 10 ^ (k - 6) / 2) :
    toSixDigits q = digits * 10 ^ (k - 5) := by
  have unit : (0 : ℚ) < 10 ^ (k - 6) := zpow_pos (by norm_num) _
  have power {p : ℤ} (n : ℕ) (shift : p = k - 6 + n) : (10 : ℚ) ^ p = 10 ^ n * 10 ^ (k - 6) := by
    rw [shift, zpow_add₀ (by norm_num), zpow_natCast, mul_comm]
  have next : (10 : ℚ) ^ (k - 5) = 10 ^ 1 * 10 ^ (k - 6) := power 1 (by push_cast; ring)
  have low : (100000 : ℚ) * 10 ^ (k - 6) ≤ digits * 10 ^ (k - 6) :=
    mul_le_mul_of_nonneg_right (by exact_mod_cast least) (le_of_lt unit)
  have high : (digits : ℚ) * 10 ^ (k - 6) ≤ 999999 * 10 ^ (k - 6) :=
    mul_le_mul_of_nonneg_right (by exact_mod_cast Int.lt_add_one_iff.1 most) (le_of_lt unit)
  obtain ⟨left, right⟩ := abs_lt.1 near
  have positive : 0 < q := by
    rw [next] at left
    linarith
  rcases le_or_gt ((10 : ℚ) ^ k) q with above | below
  · have first : leading q = k := by
      refine leading_eq ?_ ?_
      · rwa [abs_of_pos positive]
      · rw [abs_of_pos positive, power 7 (show k + 1 = k - 6 + (7 : ℕ) by push_cast; ring)]
        rw [next] at right
        linarith
    rw [toSixDigits, first, show 5 - k = -(k - 5) by ring]
    refine atPlaces_of_near (near.trans ?_)
    rw [next]
    linarith
  · -- Only a power of ten has something below it that is rounded to it and begins further behind.
    rw [power 6 (show k = k - 6 + (6 : ℕ) by push_cast; ring)] at below
    have hundred : digits = 100000 := by
      refine le_antisymm (Int.lt_add_one_iff.1 ?_) least
      rw [next] at left
      have : (digits : ℚ) * 10 ^ (k - 6) < (100000 + 1 : ℤ) * 10 ^ (k - 6) := by
        push_cast
        linarith
      exact_mod_cast (mul_lt_mul_iff_left₀ unit).1 this
    subst hundred
    have first : leading q = k - 1 := by
      refine leading_eq ?_ ?_
      · rw [abs_of_pos positive, power 5 (show k - 1 = k - 6 + (5 : ℕ) by push_cast; ring)]
        rw [next] at left
        push_cast at left
        linarith
      · rw [abs_of_pos positive, power 6 (show k - 1 + 1 = k - 6 + (6 : ℕ) by push_cast; ring)]
        exact below
    have same : ((100000 : ℤ) : ℚ) * 10 ^ (k - 5) = (1000000 : ℤ) * 10 ^ (k - 6) := by
      rw [next]
      push_cast
      ring
    rw [toSixDigits, first, show 5 - (k - 1) = -(k - 6) by ring, same]
    rw [same] at near
    exact atPlaces_of_near near

/-- Rounding to six digits keeps the first digit where it is, or carries into a one before it. -/
theorem leading_toSixDigits (positive : 0 < q) :
    leading (toSixDigits q) = leading q ∨
      toSixDigits q = (100000 : ℤ) * 10 ^ (leading q - 4) ∧
        leading (toSixDigits q) = leading q + 1 := by
  obtain ⟨least, most⟩ := scaled_bounds positive
  obtain ⟨low, high⟩ := nearestWhole_bounds least most
  rcases lt_or_eq_of_le high with six | carried
  · left
    rw [toSixDigits_eq]
    exact leading_scaled low six
  · have value : toSixDigits q = (100000 : ℤ) * 10 ^ (leading q - 4) := by
      rw [toSixDigits_eq, carried, show leading q - 4 = leading q - 5 + 1 by ring,
        zpow_add_one₀ (by norm_num)]
      push_cast
      ring
    refine .inr ⟨value, ?_⟩
    rw [value, show leading q - 4 = leading q + 1 - 5 by ring]
    exact leading_scaled le_rfl (by decide)

theorem leading_le_leading_toSixDigits (nonzero : q ≠ 0) :
    leading q ≤ leading (toSixDigits q) := by
  rcases lt_or_gt_of_ne nonzero with negative | positive
  · rcases leading_toSixDigits (neg_pos.2 negative) with kept | ⟨-, carried⟩
    · rw [toSixDigits_neg, leading_neg, leading_neg] at kept
      exact le_of_eq kept.symm
    · rw [toSixDigits_neg, leading_neg, leading_neg] at carried
      omega
  · rcases leading_toSixDigits positive with kept | ⟨-, carried⟩ <;> omega

theorem atPlaces_toSixDigits_of_pos (positive : 0 < q) :
    atPlaces (5 - leading (toSixDigits q)) q = toSixDigits q := by
  rcases leading_toSixDigits positive with kept | ⟨value, carried⟩
  · rw [kept, toSixDigits]
  · rw [carried, value, show 5 - (leading q + 1) = -(leading q - 4) by ring]
    refine atPlaces_of_near ?_
    have near := abs_sub_atPlaces_le (leading q - 5) q
    rw [show -(leading q - 5) = 5 - leading q by ring, ← toSixDigits, value] at near
    refine lt_of_le_of_lt near (div_lt_div_of_pos_right ?_ two_pos)
    exact zpow_lt_zpow_right₀ (by norm_num) (by omega)

/-- Rounding again, at the places that the result has behind its sixth digit, comes to the same:
where rounding has carried into a new first digit, there is one place less, and nothing is lost. -/
theorem atPlaces_toSixDigits (nonzero : q ≠ 0) :
    atPlaces (5 - leading (toSixDigits q)) q = toSixDigits q := by
  rcases lt_or_gt_of_ne nonzero with negative | positive
  · have mirrored := atPlaces_toSixDigits_of_pos (neg_pos.2 negative)
    rwa [toSixDigits_neg, leading_neg, atPlaces_neg, neg_inj] at mirrored
  · exact atPlaces_toSixDigits_of_pos positive

end Decimal

end LineBasic
