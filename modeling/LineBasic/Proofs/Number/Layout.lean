import LineBasic.Proofs.Number.Decimal
import LineBasic.Proofs.Number.Format

/-!
# How numbers are laid out

Six digits are written in positional notation or with an exponent, as their first digit asks for,
and without zeros behind the last digit that is needed. In positional notation the same can be had
by rounding anew: a value is rounded to as many places as are left for six digits, written with all
of them, and the zeros at the end are taken away.

Results:
1. `SixDigits.laidOut`: how six digits are laid out.
2. `SixDigits.trimFraction_fixed`: the same text from a value that is rounded at its places.
-/

namespace LineBasic

/-! ## 1. Digits and exponents -/

/-- How a numeral is laid out whose first digit other than zero stands for `10 ^ k`. -/
structure Numeral.LaidOut (n : Numeral) (k : ℤ) : Prop where
  /-- An exponent is written for what is very small or very large. -/
  exponent_iff : n.exponent.isSome = true ↔ k < -4 ∨ 6 ≤ k
  /-- It tells the power of ten of the first digit, with its sign and two digits or more. -/
  exponent : ∀ e, n.exponent = some e →
    e.sign = some (if k < 0 then '-' else '+') ∧ 2 ≤ e.digits.length ∧ e.value = k
  /-- All digits of a whole number stand before the point, and no others. -/
  whole : n.whole = Nat.toDigits 10 ⌊n.value / 10 ^ n.exponent.elim 0 Exponent.value⌋₊
  /-- Digits stand behind a point, and the last of them is no zero. -/
  fraction : ∀ digits, n.fraction = some digits → digits ≠ [] ∧ digits.getLast? ≠ some '0'

namespace SixDigits

open FormatLemmas

namespace LayoutLemmas

theorem toDigits_eq_append {m k : ℕ} (large : 10 ^ k ≤ m) :
    ∃ behind : List Char, behind.length = k ∧
      Nat.toDigits 10 m = Nat.toDigits 10 (m / 10 ^ k) ++ behind := by
  induction k generalizing m with
  | zero => exact ⟨[], rfl, by simp⟩
  | succ k ih =>
    have ten : 10 ≤ m := Nat.le_trans (Nat.le_self_pow (by omega) 10) large
    have rest : 10 ^ k ≤ m / 10 := (Nat.le_div_iff_mul_le (by decide)).2 large
    obtain ⟨behind, length, split⟩ := ih rest
    refine ⟨behind ++ [Nat.digitChar (m % 10)], by simp [length], ?_⟩
    rw [Nat.toDigits_of_base_le (by decide) ten, split, Nat.div_div_eq_div_mul, ← Nat.pow_succ',
      List.append_assoc]

/-- The first digits of six. -/
theorem take_toDigits {n : SixDigits} (bounded : n.Bounded) {k : ℕ} (some : k ≤ 5) :
    (Nat.toDigits 10 n.digits).take (6 - k) = Nat.toDigits 10 ⌊n.digits / (10 : ℚ) ^ k⌋₊ := by
  have large : 10 ^ k ≤ n.digits :=
    Nat.le_trans (Nat.pow_le_pow_right (by decide) some) bounded.least
  have six := length_toDigits bounded
  obtain ⟨behind, length, split⟩ := toDigits_eq_append large
  have floor := Nat.floor_div_eq_div (K := ℚ) n.digits (10 ^ k)
  rw [Nat.cast_pow, Nat.cast_ofNat] at floor
  rw [split, List.length_append, length] at six
  rw [floor, split, List.take_left' (by omega)]

theorem getLast_dropZeros (digits : List Char) : (dropZeros digits).getLast? ≠ some '0' := by
  intro last
  obtain ⟨some, last⟩ := List.mem_getLast?_eq_getLast last
  exact List.rdropWhile_last_not (· == '0') digits some (beq_iff_eq.2 last.symm)

theorem dropZeros_toDigits_ne_nil {m : ℕ} (positive : 0 < m) :
    dropZeros (Nat.toDigits 10 m) ≠ [] := by
  intro empty
  have zeros : Nat.toDigits 10 m = List.replicate (Nat.toDigits 10 m).length '0' :=
    List.eq_replicate_iff.2
      ⟨rfl, fun c mem => beq_iff_eq.1 (List.rdropWhile_eq_nil_iff.1 empty c mem)⟩
  have value : Nat.ofDigitChars 10 (Nat.toDigits 10 m) 0 = m := Nat.ofDigitChars_ten_toDigits
  rw [zeros, Nat.ofDigitChars_replicate_zero, Nat.mul_zero] at value
  omega

theorem fraction_dropZeros {digits kept : List Char}
    (written : fractionOf (dropZeros digits) = some kept) :
    kept ≠ [] ∧ kept.getLast? ≠ some '0' := by
  obtain ⟨rfl, notEmpty⟩ := fractionOf_eq_some written
  exact ⟨notEmpty, getLast_dropZeros digits⟩

theorem two_le_length_exponentOf (k : ℤ) : 2 ≤ (exponentOf k).digits.length := by
  rw [exponentOf, List.length_append, List.length_replicate]
  omega

end LayoutLemmas

open LayoutLemmas

/-- How six digits are laid out. -/
theorem laidOut {n : SixDigits} (bounded : n.Bounded) : n.numeral.LaidOut n.exponent := by
  have ten : (10 : ℚ) ≠ 0 := by norm_num
  have value := value_numeral bounded
  have positive : 0 < n.digits := Nat.lt_of_lt_of_le (by decide) bounded.least
  constructor
  case exponent_iff =>
    rw [numeral]
    split
    next fixed =>
      split <;> exact iff_of_false (by simp) (by omega)
    next notFixed => exact iff_of_true rfl (by omega)
  case exponent =>
    rw [numeral]
    intro e written
    split at written
    next => split at written <;> cases written
    next =>
      obtain rfl := Option.some.inj written
      exact ⟨rfl, two_le_length_exponentOf _, value_exponentOf _⟩
  case whole =>
    rw [value, numeral]
    split
    next fixed =>
      split
      next small =>
        have below : n.value < 1 :=
          (value_bounds bounded).2.trans_le (zpow_le_one_of_nonpos₀ (by norm_num) (by omega))
        simp only [Option.elim_none, zpow_zero, div_one]
        rw [Nat.floor_eq_zero.2 below]
        rfl
      next large =>
        obtain ⟨k, places⟩ : ∃ k : ℕ, n.exponent - 5 = -(k : ℤ) :=
          ⟨(5 - n.exponent).toNat, by omega⟩
        simp only [Option.elim_none, zpow_zero, div_one]
        rw [SixDigits.value, places, zpow_neg, zpow_natCast, ← div_eq_mul_inv, ← take_toDigits bounded (by omega)]
        congr 1
        omega
    next =>
      simp only [Option.elim_some, value_exponentOf]
      rw [SixDigits.value, zpow_sub₀ ten, mul_div_assoc, div_div_cancel_left' (zpow_ne_zero _ ten), ← div_eq_mul_inv,
        zpow_ofNat, ← take_toDigits bounded le_rfl]
  case fraction =>
    rw [numeral]
    intro digits written
    split at written
    next =>
      split at written
      next =>
        obtain ⟨rfl, notEmpty⟩ := fractionOf_eq_some written
        refine ⟨notEmpty, ?_⟩
        rw [List.getLast?_append_of_ne_nil _ (dropZeros_toDigits_ne_nil positive)]
        exact getLast_dropZeros _
      next => exact fraction_dropZeros written
    next => exact fraction_dropZeros written

end SixDigits

/-! ## 2. Places -/

/-- A value rounded to a number of places, and written with all of them. -/
def Decimal.fixed (places : ℕ) (q : ℚ) : List Char :=
  let digits := Nat.toDigits 10 (nearestWhole (|q| * 10 ^ places)).natAbs
  let filled := List.replicate (places + 1 - digits.length) '0' ++ digits
  let whole := filled.take (filled.length - places)
  (if q < 0 then '-' :: whole else whole) ++
    if places = 0 then [] else '.' :: filled.drop (filled.length - places)

/-- Without zeros at the end and a point before them, if there is a point. -/
def Text.trimFraction (cs : List Char) : List Char :=
  if '.' ∈ cs then (cs.rdropWhile (· == '0')).rdropWhile (· == '.') else cs

namespace SixDigits

open FormatLemmas LayoutLemmas

namespace TrimLemmas

theorem trimFraction_pointed {whole fraction : List Char} (noPoint : '.' ∉ whole)
    (all : AllDigits fraction) :
    Text.trimFraction (whole ++ '.' :: fraction) = pointed whole (dropZeros fraction) := by
  have zeros : (whole ++ '.' :: fraction).rdropWhile (· == '0') =
      whole ++ '.' :: dropZeros fraction := by
    rw [List.append_cons, List.append_cons whole '.' (dropZeros fraction)]
    exact Text.dropTrailing_append (.inl (List.rdropWhile_concat_neg _ _ _ (by decide)))
  rw [Text.trimFraction, if_pos (List.mem_append_right _ List.mem_cons_self), zeros, pointed]
  have digits := allDigits_dropZeros all
  generalize dropZeros fraction = kept at *
  split
  next none =>
    rw [none, List.rdropWhile_concat_pos _ _ _ (by decide), List.rdropWhile_eq_self_iff]
    intro some point
    exact noPoint (beq_iff_eq.1 point ▸ List.getLast_mem some)
  next some =>
    rw [List.rdropWhile_eq_self_iff]
    intro _ point
    rw [List.getLast_append_of_ne_nil _ (List.cons_ne_nil _ _), List.getLast_cons some] at point
    have digit := digits _ (List.getLast_mem some)
    rw [beq_iff_eq.1 point] at digit
    exact absurd digit (by decide)

/-- What is left of digits behind a sign, with a fraction if there are places for it. -/
theorem trimFraction_signed (negative : Bool) (places : ℕ) {whole fraction : List Char}
    (digits : AllDigits whole) (digits' : AllDigits fraction)
    (noPlaces : places = 0 → fraction = []) :
    Text.trimFraction ((if negative then '-' :: whole else whole) ++
        if places = 0 then [] else '.' :: fraction) =
      (⟨whole, fractionOf (dropZeros fraction), none⟩ : Numeral).signed negative := by
  have signed : (⟨whole, fractionOf (dropZeros fraction), none⟩ : Numeral).signed negative =
      pointed (if negative then '-' :: whole else whole) (dropZeros fraction) := by
    cases negative <;> simp [Numeral.signed, Numeral.text, pointed_eq]
  have noPoint : '.' ∉ if negative then '-' :: whole else whole := by
    have plain : '.' ∉ whole := fun point => absurd (digits '.' point) (by decide)
    cases negative with
    | false => exact plain
    | true => exact List.not_mem_cons_of_ne_of_not_mem (by decide) plain
  rw [signed]
  by_cases empty : places = 0
  · rw [if_pos empty, noPlaces empty, List.append_nil, Text.trimFraction, if_neg noPoint]
    rfl
  · rw [if_neg empty]
    exact trimFraction_pointed noPoint digits'

theorem nearestWhole_eq {n : SixDigits} {q : ℚ}
    (value : Decimal.atPlaces (5 - n.exponent) q = n.value) :
    Decimal.nearestWhole (q * 10 ^ (5 - n.exponent)) = n.digits := by
  have scale : (10 : ℚ) ^ (5 - n.exponent) ≠ 0 := zpow_ne_zero _ (by norm_num)
  rw [Decimal.atPlaces, SixDigits.value, show n.exponent - 5 = -(5 - n.exponent) by ring, zpow_neg,
    div_eq_mul_inv] at value
  exact_mod_cast mul_right_cancel₀ (inv_ne_zero scale) value

/-- Six digits in positional notation, cut out of the digits filled up with zeros in front. -/
theorem numeral_eq {n : SixDigits} (bounded : n.Bounded) {places : ℕ} (most : places ≤ 9)
    (exponent : n.exponent = 5 - places) {filled : List Char}
    (fill : filled = List.replicate (places + 1 - 6) '0' ++ Nat.toDigits 10 n.digits) :
    n.numeral = ⟨filled.take (filled.length - places),
      fractionOf (dropZeros (filled.drop (filled.length - places))), none⟩ := by
  have length := length_toDigits bounded
  have positive : 0 < n.digits := Nat.lt_of_lt_of_le (by decide) bounded.least
  have kept := dropZeros_toDigits_ne_nil positive
  rw [numeral, exponent, if_pos (by omega)]
  generalize Nat.toDigits 10 n.digits = ds at *
  split
  next small =>
    obtain ⟨k, rfl⟩ : ∃ k, places = k + 6 := ⟨places - 6, by omega⟩
    have size : filled.length - (k + 6) = 1 := by
      rw [fill, List.length_append, List.length_replicate, length]
      omega
    rw [size, fill, show k + 6 + 1 - 6 = k + 1 by omega, List.replicate_succ, List.cons_append,
      show (-(5 - ((k + 6 : ℕ) : ℤ)) - 1).toNat = k by omega]
    have zeros : dropZeros (List.replicate k '0' ++ ds) = List.replicate k '0' ++ dropZeros ds :=
      Text.dropTrailing_append (.inr kept)
    rw [← zeros]
    rfl
  next large =>
    have whole : filled = ds := by
      rw [fill, show places + 1 - 6 = 0 by omega]
      rfl
    rw [whole, length, show (5 - (places : ℤ)).toNat + 1 = 6 - places by omega]

end TrimLemmas

open TrimLemmas

/-- The text of six digits in positional notation, from a value that is rounded at their places. -/
theorem trimFraction_fixed {n : SixDigits} (bounded : n.Bounded) (least : -4 ≤ n.exponent)
    (most : n.exponent < 6) {q : ℚ} (value : Decimal.atPlaces (5 - n.exponent) |q| = n.value) :
    Text.trimFraction (Decimal.fixed (5 - n.exponent).toNat q) = n.numeral.signed (q < 0) := by
  have rounded := nearestWhole_eq value
  obtain ⟨places, exponent⟩ : ∃ places : ℕ, n.exponent = 5 - places :=
    ⟨(5 - n.exponent).toNat, by omega⟩
  rw [exponent, show 5 - (5 - (places : ℤ)) = places by ring, zpow_natCast] at rounded
  rw [exponent, show 5 - (5 - (places : ℤ)) = places by ring, Int.toNat_natCast, Decimal.fixed,
    rounded]
  have length := length_toDigits bounded
  simp only [Int.natAbs_natCast, length]
  generalize fill : List.replicate (places + 1 - 6) '0' ++ Nat.toDigits 10 n.digits = filled
  have digits : AllDigits filled :=
    fill ▸ allDigits_append (allDigits_replicate _) (allDigits_toDigits _)
  rw [numeral_eq bounded (by omega) exponent fill.symm]
  have trimmed := trimFraction_signed (decide (q < 0)) places
    (allDigits_of_subset (List.take_subset (filled.length - places) filled) digits)
    (allDigits_of_subset (List.drop_subset (filled.length - places) filled) digits)
    fun empty => by rw [empty, Nat.sub_zero, List.drop_length]
  simpa using trimmed

end SixDigits

end LineBasic
