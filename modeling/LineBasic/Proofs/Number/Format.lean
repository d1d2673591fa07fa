import LineBasic.Proofs.Number.Numeral
import LineBasic.Proofs.Number.SixDigits

/-!
# What is written of a number can be read

A number that is finite and has no sign is written as a well-formed numeral. The numeral has the
value of the six digits, and as the greatest double is rounded down to six digits, what is read back
is finite again.

Results:
1. `SixDigits.text_standard`, `SixDigits.wellFormed_numeral`: the text is that of a numeral.
2. `SixDigits.value_numeral`: the numeral is worth what the six digits are.
3. `Double.isFinite_ofDecimal`: what is read of a value within bounds is finite.
4. `Number.format_eq`: a written number is a numeral that is read as a finite number.
-/

namespace LineBasic

/-- The exact value of a numeral. -/
def Numeral.value (n : Numeral) : ℚ :=
  Nat.ofDigitChars 10 n.digits 0 *
    10 ^ (n.exponent.elim 0 Exponent.value - ((n.fraction.getD []).length : ℤ))

/-- The exact value of a numeral behind its sign, if it has one. -/
def Numeral.signedValue (negative : Bool) (n : Numeral) : ℚ :=
  if negative then -n.value else n.value

namespace SixDigits

/-- The exact value of six digits. -/
def value (n : SixDigits) : ℚ := n.digits * 10 ^ (n.exponent - 5)

/-! ## 1. The numeral of six digits -/

/-- The digits behind a point, which is left out with them. -/
def fractionOf (digits : List Char) : Option (List Char) :=
  if digits = [] then none else some digits

/-- An exponent with its sign. -/
def exponentOf (exponent : Int) : Exponent :=
  let digits := Nat.toDigits 10 exponent.natAbs
  ⟨'e', some (if exponent < 0 then '-' else '+'), List.replicate (2 - digits.length) '0' ++ digits⟩

/-- The numeral that six digits are written as. -/
def numeral (n : SixDigits) : Numeral :=
  let digits := Nat.toDigits 10 n.digits
  if -4 ≤ n.exponent ∧ n.exponent < 6 then
    if n.exponent < 0 then
      ⟨['0'], fractionOf (List.replicate (-n.exponent - 1).toNat '0' ++ dropZeros digits), none⟩
    else
      let places := n.exponent.toNat + 1
      ⟨digits.take places, fractionOf (dropZeros (digits.drop places)), none⟩
  else ⟨digits.take 1, fractionOf (dropZeros (digits.drop 1)), some (exponentOf n.exponent)⟩

variable {n : SixDigits}

namespace FormatLemmas

theorem pointed_eq (whole fraction : List Char) :
    pointed whole fraction = whole ++ (fractionOf fraction).elim [] ('.' :: ·) := by
  rw [pointed, fractionOf]
  split <;> simp

theorem getD_fractionOf (digits : List Char) : (fractionOf digits).getD [] = digits := by
  unfold fractionOf
  split
  next h => exact h.symm
  next => rfl

theorem allDigits_toDigits (m : Nat) : AllDigits (Nat.toDigits 10 m) :=
  fun _ mem => Nat.isDigit_of_mem_toDigits (by decide) (by decide) mem

theorem allDigits_append {a b : List Char} (ha : AllDigits a) (hb : AllDigits b) :
    AllDigits (a ++ b) := fun c mem => (List.mem_append.1 mem).elim (ha c) (hb c)

theorem allDigits_replicate (k : Nat) : AllDigits (List.replicate k '0') := by
  intro c mem
  rw [List.eq_of_mem_replicate mem]
  decide

theorem isPrefix_dropZeros (digits : List Char) : dropZeros digits <+: digits :=
  digits.rdropWhile_prefix _

theorem allDigits_of_subset {a b : List Char} (sub : a ⊆ b) (hb : AllDigits b) : AllDigits a :=
  fun c mem => hb c (sub mem)

theorem allDigits_dropZeros {digits : List Char} (h : AllDigits digits) :
    AllDigits (dropZeros digits) := allDigits_of_subset (isPrefix_dropZeros digits).subset h

/-- A fraction that is written has digits. -/
theorem fractionOf_eq_some {digits kept : List Char} (written : fractionOf digits = some kept) :
    kept = digits ∧ digits ≠ [] := by
  unfold fractionOf at written
  split at written
  next => cases written
  next notEmpty => exact ⟨(Option.some.inj written).symm, notEmpty⟩

theorem allDigits_fractionOf {digits : List Char} (h : AllDigits digits) :
    ∀ ds, fractionOf digits = some ds → AllDigits ds :=
  fun _ written => (fractionOf_eq_some written).1 ▸ h

theorem wellFormed_exponentOf (exponent : Int) : (exponentOf exponent).WellFormed := by
  refine ⟨.inl rfl, ?_, ?_, ?_⟩
  · unfold exponentOf
    split
    · exact .inr (.inr rfl)
    · exact .inr (.inl rfl)
  · exact allDigits_append (allDigits_replicate _) (allDigits_toDigits _)
  · exact List.append_ne_nil_of_right_ne_nil _ Nat.toDigits_ne_nil

theorem value_exponentOf (exponent : Int) : (exponentOf exponent).value = exponent := by
  have size : Nat.ofDigitChars 10 (exponentOf exponent).digits 0 = exponent.natAbs := by
    rw [exponentOf, Nat.ofDigitChars_append, Nat.ofDigitChars_replicate_zero, Nat.mul_zero,
      Nat.ofDigitChars_ten_toDigits]
  rw [Exponent.value, size]
  by_cases negative : exponent < 0
  · have sign : (exponentOf exponent).sign = some '-' := by rw [exponentOf, if_pos negative]
    rw [if_pos sign]
    omega
  · have sign : (exponentOf exponent).sign = some '+' := by rw [exponentOf, if_neg negative]
    rw [if_neg (by rw [sign]; decide)]
    omega

/-- Zeros at the end behind the point may be dropped. -/
theorem value_dropZeros (whole fraction : List Char) (exponent : ℤ) :
    (Nat.ofDigitChars 10 (whole ++ dropZeros fraction) 0 : ℚ) *
        10 ^ (exponent - (dropZeros fraction).length) =
      Nat.ofDigitChars 10 (whole ++ fraction) 0 * 10 ^ (exponent - fraction.length) := by
  obtain ⟨k, split⟩ : ∃ k, fraction = dropZeros fraction ++ List.replicate k '0' := by
    refine ⟨(fraction.rtakeWhile (· == '0')).length, ?_⟩
    have zeros : fraction.rtakeWhile (· == '0') =
        List.replicate (fraction.rtakeWhile (· == '0')).length '0' :=
      List.eq_replicate_iff.2 ⟨rfl, fun c mem => by simpa using List.mem_rtakeWhile_imp mem⟩
    rw [← zeros]
    exact (List.rdropWhile_append_rtakeWhile ..).symm
  generalize dropZeros fraction = kept at *
  have grown : Nat.ofDigitChars 10 (whole ++ fraction) 0 =
      10 ^ k * Nat.ofDigitChars 10 (whole ++ kept) 0 := by
    rw [split, ← List.append_assoc, Nat.ofDigitChars_append, Nat.ofDigitChars_replicate_zero]
  have length : exponent - fraction.length = exponent - kept.length + -(k : ℤ) := by
    rw [split, List.length_append, List.length_replicate]
    push_cast
    ring
  rw [grown, length, zpow_add₀ (by norm_num), zpow_neg 10 (k : ℤ), zpow_natCast]
  push_cast
  field_simp

end FormatLemmas

open FormatLemmas

/-- The text is that of the numeral. -/
theorem text_standard (n : SixDigits) : n.text .standard = n.numeral.text := by
  rw [text, numeral]
  show (if -4 ≤ n.exponent ∧ n.exponent < 6 then n.positional else n.scientific .standard) = _
  by_cases fixed : -4 ≤ n.exponent ∧ n.exponent < 6
  · rw [if_pos fixed, if_pos fixed, positional]
    split
    · rw [pointed_eq, Numeral.text, Option.elim_none, List.append_nil]
    · rw [pointed_eq, Numeral.text, Option.elim_none, List.append_nil]
  · rw [if_neg fixed, if_neg fixed, scientific, pointed_eq]
    rfl

theorem wellFormed_numeral (n : SixDigits) : n.numeral.WellFormed := by
  have digits := allDigits_toDigits n.digits
  have some_exponent : ∀ e, some (exponentOf n.exponent) = some e → e.WellFormed := by
    intro e h
    cases h
    exact wellFormed_exponentOf n.exponent
  have front (k : Nat) := allDigits_of_subset (List.take_subset k _) digits
  have back (k : Nat) := allDigits_dropZeros (allDigits_of_subset (List.drop_subset k _) digits)
  have zeros (k : Nat) := allDigits_append (allDigits_replicate k) (allDigits_dropZeros digits)
  unfold numeral
  split
  · split
    · exact ⟨allDigits_replicate 1, allDigits_fractionOf (zeros _), fun _ h => nomatch h⟩
    · exact ⟨front _, allDigits_fractionOf (back _), fun _ h => nomatch h⟩
  · exact ⟨front _, allDigits_fractionOf (back _), some_exponent⟩

theorem whole_numeral_ne_nil (n : SixDigits) : n.numeral.whole ≠ [] := by
  have some (k : Nat) : (Nat.toDigits 10 n.digits).take (k + 1) ≠ [] := by
    cases shape : Nat.toDigits 10 n.digits with
    | nil => exact absurd shape Nat.toDigits_ne_nil
    | cons d ds => exact List.cons_ne_nil d _
  unfold numeral
  split
  · split
    · exact List.cons_ne_nil '0' []
    · exact some _
  · exact some 0

theorem length_toDigits (bounded : n.Bounded) : (Nat.toDigits 10 n.digits).length = 6 := by
  have most := (Nat.length_toDigits_le_iff (b := 10) (k := 6) (by decide) (by decide)).2 bounded.most
  have least := mt (Nat.length_toDigits_le_iff (b := 10) (k := 5) (by decide) (by decide)).1
    (Nat.not_lt.2 bounded.least)
  omega

/-- The numeral is worth what the six digits are. -/
theorem value_numeral (bounded : n.Bounded) : n.numeral.value = n.value := by
  have length := length_toDigits bounded
  have digits : Nat.ofDigitChars 10 (Nat.toDigits 10 n.digits) 0 = n.digits :=
    Nat.ofDigitChars_ten_toDigits
  rw [numeral, value]
  generalize Nat.toDigits 10 n.digits = ds at *
  rw [← digits]
  split
  next fixed =>
    split
    next small =>
      -- The zeros behind the point count as digits before those that are dropped from.
      generalize zeros : (-n.exponent - 1).toNat = k
      have dropped := value_dropZeros (List.replicate (k + 1) '0') ds (-k)
      rw [Nat.ofDigitChars_append (m := ds), Nat.ofDigitChars_replicate_zero, Nat.mul_zero, length]
        at dropped
      simp only [Numeral.value, Numeral.digits, getD_fractionOf, Option.elim_none]
      rw [show n.exponent - 5 = -(k : ℤ) - 6 by omega]
      refine Eq.trans ?_ dropped
      rw [← List.append_assoc, List.length_append, List.length_replicate]
      congr 2
      push_cast
      ring
    next large =>
      have dropped := value_dropZeros (ds.take (n.exponent.toNat + 1))
        (ds.drop (n.exponent.toNat + 1)) 0
      rw [List.take_append_drop, List.length_drop, length] at dropped
      simp only [Numeral.value, Numeral.digits, getD_fractionOf, Option.elim_none]
      rw [dropped]
      congr 2
      omega
  next =>
    have dropped := value_dropZeros (ds.take 1) (ds.drop 1) n.exponent
    rw [List.take_append_drop, List.length_drop, length] at dropped
    simp only [Numeral.value, Numeral.digits, getD_fractionOf, Option.elim_some, value_exponentOf]
    exact dropped

end SixDigits

/-! ## 2. What is read is finite -/

namespace Double

/-- The greatest double in six digits. -/
def greatestWritten : Nat := 179769 * 10 ^ 303

theorem greatestWritten_le : greatestWritten * unitsPerOne ≤ largestUnits := by decide +kernel

theorem cast_greatestWritten : (greatestWritten : ℚ) = 179769 * 10 ^ (303 : ℤ) := by
  have whole : greatestWritten = 179769 * 10 ^ 303 := rfl
  rw [whole, Nat.cast_mul, Nat.cast_pow]
  rfl

/-- A value that is no more than the greatest double in six digits is read as a finite double. -/
theorem isFinite_ofDecimal {negative : Bool} {digits : Nat} {exponent : Int}
    (bounded : (digits : ℚ) * 10 ^ exponent ≤ greatestWritten) :
    (ofDecimal negative digits exponent).isFinite = true := by
  rw [isFinite_iff]
  have reads := (ofDecimal_spec negative digits exponent).1
  generalize magnitude (ofDecimal negative digits exponent) = m at reads
  cases reads with
  | zero | small => decide
  | large some above =>
    have one : (1 : ℚ) ≤ digits := by exact_mod_cast Nat.pos_of_ne_zero some
    have grows : (10 : ℚ) ^ (6 + 303 : ℤ) ≤ 10 ^ exponent :=
      zpow_le_zpow_right₀ (by norm_num) (by omega)
    have positive : (0 : ℚ) < 10 ^ (303 : ℤ) := zpow_pos (by norm_num) _
    rw [zpow_add₀ (by norm_num)] at grows
    refine absurd bounded (not_le.2 ?_)
    rw [cast_greatestWritten]
    calc (179769 : ℚ) * 10 ^ (303 : ℤ) < 10 ^ (6 : ℤ) * 10 ^ (303 : ℤ) :=
          mul_lt_mul_of_pos_right (by norm_num) positive
      _ ≤ 10 ^ exponent := grows
      _ ≤ digits * 10 ^ exponent := le_mul_of_one_le_left (zpow_nonneg (by norm_num) _) one
  | @nearest num den positive quotient =>
    have size : (0 : ℚ) < den := by exact_mod_cast positive
    rw [← quotient, div_le_iff₀' size] at bounded
    have most : num ≤ den * greatestWritten := by exact_mod_cast bounded
    refine nearest_lt_infinity positive ?_
    calc num * unitsPerOne ≤ den * greatestWritten * unitsPerOne := Nat.mul_le_mul_right _ most
      _ = den * (greatestWritten * unitsPerOne) := Nat.mul_assoc ..
      _ ≤ den * largestUnits := Nat.mul_le_mul_left _ greatestWritten_le

end Double

/-- The value of six digits goes by the place of the first. -/
theorem SixDigits.value_bounds {n : SixDigits} (bounded : n.Bounded) :
    (10 : ℚ) ^ n.exponent ≤ n.value ∧ n.value < 10 ^ (n.exponent + 1) := by
  have scale : (0 : ℚ) < 10 ^ (n.exponent - 5) := zpow_pos (by norm_num) _
  have least : (10 : ℚ) ^ (5 : ℤ) ≤ n.digits := by exact_mod_cast bounded.least
  have most : (n.digits : ℚ) < 10 ^ (6 : ℤ) := by exact_mod_cast bounded.most
  constructor
  · calc (10 : ℚ) ^ n.exponent = 10 ^ (5 : ℤ) * 10 ^ (n.exponent - 5) := by
          rw [← zpow_add₀ (by norm_num), add_sub_cancel]
      _ ≤ n.value := mul_le_mul_of_nonneg_right least (le_of_lt scale)
  · calc n.value < 10 ^ (6 : ℤ) * 10 ^ (n.exponent - 5) := mul_lt_mul_of_pos_right most scale
      _ = 10 ^ (n.exponent + 1) := by
          rw [← zpow_add₀ (by norm_num)]
          congr 1
          ring

/-- Six digits within bounds are worth no more than the greatest double in six digits. -/
theorem SixDigits.value_le {n : SixDigits} (bounded : n.Bounded) :
    n.value ≤ Double.greatestWritten := by
  have positive : (0 : ℚ) < 10 ^ (303 : ℤ) := zpow_pos (by norm_num) _
  rw [Double.cast_greatestWritten]
  by_cases top : n.exponent = 308
  · have most : (n.digits : ℚ) ≤ 179769 := by exact_mod_cast bounded.greatest top
    rw [value, top]
    exact mul_le_mul_of_nonneg_right most (le_of_lt positive)
  · have exponent := bounded.exponent
    calc n.value ≤ 10 ^ (n.exponent + 1) := le_of_lt (value_bounds bounded).2
      _ ≤ 10 ^ (5 + 303 : ℤ) := zpow_le_zpow_right₀ (by norm_num) (by omega)
      _ = 10 ^ (5 : ℤ) * 10 ^ (303 : ℤ) := zpow_add₀ (by norm_num) _ _
      _ ≤ 179769 * 10 ^ (303 : ℤ) := mul_le_mul_of_nonneg_right (by norm_num) (le_of_lt positive)

/-- A numeral is read with the sign in front of it. -/
theorem Numeral.isNegative_toNumber (negative : Bool) (n : Numeral) :
    Double.isNegative (n.toNumber negative) = negative := (Double.ofDecimal_spec ..).2

theorem Numeral.isFinite_toNumber {negative : Bool} {n : Numeral}
    (bounded : n.value ≤ Double.greatestWritten) : (n.toNumber negative).isFinite = true :=
  Double.isFinite_ofDecimal bounded

/-- The numeral that zero is written as. -/
theorem Numeral.wellFormed_zero : (⟨['0'], none, none⟩ : Numeral).WellFormed where
  whole := SixDigits.FormatLemmas.allDigits_replicate 1
  fraction _ written := nomatch written
  exponent _ written := nomatch written

theorem Number.format_zero {x : Number} (empty : Double.magnitude x = 0) : x.format = "0" := by
  unfold format
  simp only [empty, if_true]
  rfl

/-- A finite number other than zero is written as the numeral of its six digits, behind its sign. -/
theorem Number.format_of_units {x : Number} (positive : 0 < Double.magnitude x)
    (finite : Double.magnitude x < Double.infinity) :
    x.format = String.ofList ((SixDigits.ofUnits (Double.units (Double.magnitude x))).numeral.signed
      (Double.isNegative x)) := by
  unfold format
  simp only [if_neg (Nat.lt_asymm finite), if_neg (Nat.ne_of_gt positive),
    if_neg (Nat.ne_of_lt finite), SixDigits.text_standard]
  rfl

/-- A number that is finite and has no sign is written as a numeral that is read as a finite
number. -/
theorem Number.format_eq {x : Number} (finite : x.isFinite = true)
    (unsigned : Double.isNegative x = false) :
    ∃ n : Numeral, x.format = String.ofList n.text ∧ n.WellFormed ∧ n.whole ≠ [] ∧
      n.value ≤ Double.greatestWritten := by
  have below := (Double.isFinite_iff x).1 finite
  rcases Nat.eq_zero_or_pos (Double.magnitude x) with empty | positive
  · refine ⟨⟨['0'], none, none⟩, format_zero empty, Numeral.wellFormed_zero,
      List.cons_ne_nil '0' [], ?_⟩
    have zero : (⟨['0'], none, none⟩ : Numeral).value = 0 := by
      rw [Numeral.value, show Nat.ofDigitChars 10 _ 0 = 0 from rfl, Nat.cast_zero, zero_mul]
    rw [zero]
    exact Nat.cast_nonneg _
  · obtain ⟨some, bounded⟩ := SixDigits.units_bounds positive below
    have six := SixDigits.ofUnits_bounds some bounded
    refine ⟨(SixDigits.ofUnits (Double.units (Double.magnitude x))).numeral, ?_,
      SixDigits.wellFormed_numeral _, SixDigits.whole_numeral_ne_nil _, ?_⟩
    · rw [format_of_units positive below, unsigned]
      rfl
    · rw [SixDigits.value_numeral six]
      exact SixDigits.value_le six

/-- What is written of a number can be read. -/
theorem Number.read_format {x : Number} (finite : x.isFinite = true)
    (unsigned : Double.isNegative x = false) :
    ∃ y, Number.read x.format = some y ∧ y.isFinite = true := by
  obtain ⟨n, text, wellFormed, whole, bounded⟩ := format_eq finite unsigned
  refine ⟨n.toNumber false, ?_, Numeral.isFinite_toNumber bounded⟩
  rw [text]
  exact Numeral.read_text wellFormed (List.append_ne_nil_of_left_ne_nil whole _)

end LineBasic
