import LineBasic.Proofs.Number.Double

/-!
# The value of a double

The exact value of a double is that of its sign, mantissa and exponent. The magnitude and the sign
bit tell as much (`Double.unpacked`): a finite double is a whole number of units, and negative if
the bit says so. Negation flips the bit and nothing else.

Results:
1. `Double.of_pos`: a double above zero has no sign.
2. `Double.toBits_neg`: negation flips the sign and nothing else.
3. `Number.value_eq`: the value of a finite double.
4. `Number.abs_value`, `Number.isNegative_eq`: its size and its sign.
-/

namespace LineBasic

open Float.Model.UnpackedFloat (Sign)

/-- The exact value of a finite double. Infinities and what is no number count as zero. -/
def Number.value (x : Number) : ℚ :=
  match x.toModel.unpack with
  | .finite .positive mantissa exponent _ => mantissa * 2 ^ exponent
  | .finite .negative mantissa exponent _ => -(mantissa * 2 ^ exponent)
  | .zero _ | .infinity _ | .notANumber => 0

namespace Double

/-- The sign that the sign bit stands for. -/
def sign (x : Number) : Sign := if isNegative x then .negative else .positive

/-- What the magnitude of a double says about its parts. -/
inductive Unpacked (x : Number) : Float.Model.UnpackedFloat → Prop
  | notANumber (above : infinity < magnitude x) : Unpacked x .notANumber
  | infinity (full : magnitude x = infinity) : Unpacked x (.infinity (sign x))
  | zero (empty : magnitude x = 0) : Unpacked x (.zero (sign x))
  | finite {mantissa : ℕ} {exponent : ℤ} (positive : 0 < mantissa)
      (above : 0 < magnitude x) (below : magnitude x < infinity)
      (worth : (mantissa : ℚ) * 2 ^ exponent = units (magnitude x) / unitsPerOne) :
      Unpacked x (.finite (sign x) mantissa exponent positive)

namespace ValueLemmas

open Float.Model Float.Model.UnpackedFloat BitLemmas

theorem sign_toNat (b : BitVec Format.binary64.numBits) :
    (unpackSign b).toNat = b.toNat / 2 ^ 63 := by
  have width : b.toNat < 2 ^ 64 := b.isLt
  simp [unpackSign, BitVec.extractLsb_toNat, Nat.shiftRight_eq_div_pow]
  omega

theorem ofBitVec_sign (b : BitVec Format.binary64.numBits) :
    Sign.ofBitVec (unpackSign b) = if signBit ≤ b.toNat then .negative else .positive := by
  have bit := sign_toNat b
  have width : b.toNat < 2 ^ 64 := b.isLt
  have size : signBit = 0x8000000000000000 := rfl
  rw [Sign.ofBitVec, size]
  by_cases set : 0x8000000000000000 ≤ b.toNat
  · rw [if_pos set, if_neg]
    intro clear
    rw [clear] at bit
    change 0 = _ at bit
    omega
  · rw [if_neg set, if_pos]
    refine BitVec.eq_of_toNat_eq (bit.trans ?_)
    change _ = 0
    omega

theorem cast_unitsPerOne : (unitsPerOne : ℚ) = 2 ^ (1074 : ℤ) := by
  have whole : unitsPerOne = 2 ^ 1074 := by decide +kernel
  rw [whole, Nat.cast_pow, Nat.cast_ofNat]
  exact (zpow_natCast (2 : ℚ) 1074).symm

/-- The units of a magnitude, from the exponent and the mantissa in it. -/
theorem units_eq (exponent : ℕ) {mantissa : ℕ} (small : mantissa < 2 ^ 52) :
    units (exponent * 2 ^ 52 + mantissa) =
      if exponent = 0 then mantissa else (2 ^ 52 + mantissa) * 2 ^ (exponent - 1) := by
  have size : mantissaSize = 2 ^ 52 := rfl
  have quotient : (exponent * 2 ^ 52 + mantissa) / mantissaSize = exponent := by
    rw [size]
    omega
  rw [units, shift, quotient, Nat.pow_eq, size]
  split
  next zero => simp [zero]
  next positive =>
    congr 1
    omega

theorem toNat_one_append (f : BitVec 52) : (1#1 ++ f).toNat = 2 ^ 52 + f.toNat := by
  rw [BitVec.toNat_append, ← Nat.shiftLeft_add_eq_or_of_lt f.isLt]
  rfl

/-- A mantissa with the exponent that it is scaled by, in units. -/
theorem worth_eq (mantissa shift : ℕ) :
    (mantissa : ℚ) * 2 ^ (((shift + 1 : ℕ) : ℤ) - (1023 + 52)) =
      (mantissa * 2 ^ shift : ℕ) / unitsPerOne := by
  have two : (2 : ℚ) ≠ 0 := by norm_num
  have scaled : ((shift + 1 : ℕ) : ℤ) - (1023 + 52) = shift - 1074 := by omega
  rw [cast_unitsPerOne, scaled, zpow_sub₀ two, zpow_natCast, mul_div_assoc', Nat.cast_mul,
    Nat.cast_pow, Nat.cast_ofNat]

/-- A sign bit that is made from a sign stands for it. -/
theorem ofBitVec_toBitVec (s : Sign) : Sign.ofBitVec s.toBitVec = s := by
  cases s <;> rfl

/-- The bits with the other sign. -/
def flipped (b : BitVec Format.binary64.numBits) : BitVec Format.binary64.numBits :=
  packComponents .binary64 (-Sign.ofBitVec (unpackSign b)) (unpackExponent b) (unpackMantissa b)

theorem unpack_flipped (b : BitVec Format.binary64.numBits) :
    UnpackedFloat.unpack .binary64 (flipped b) = (UnpackedFloat.unpack .binary64 b).neg := by
  simp only [flipped, UnpackedFloat.unpack, unpackSign_packComponents,
    unpackExponent_packComponents, unpackMantissa_packComponents, ofBitVec_toBitVec]
  split_ifs <;> rfl

/-- Bits have their sign in front of the exponent, and the mantissa behind it. -/
theorem toNat_flipped (b : BitVec Format.binary64.numBits) :
    (flipped b).toNat % signBit = b.toNat % signBit ∧
      (signBit ≤ (flipped b).toNat ↔ ¬ signBit ≤ b.toNat) := by
  have sign := sign_toNat (flipped b)
  have exponent := exponent_toNat (flipped b)
  have mantissa := mantissa_toNat (flipped b)
  rw [flipped, unpackSign_packComponents] at sign
  rw [flipped, unpackExponent_packComponents, exponent_toNat] at exponent
  rw [flipped, unpackMantissa_packComponents, mantissa_toNat] at mantissa
  rw [← flipped, ofBitVec_sign] at sign
  rw [← flipped] at exponent mantissa
  have size : signBit = 0x8000000000000000 := rfl
  have width : b.toNat < 2 ^ 64 := b.isLt
  have width' : (flipped b).toNat < 2 ^ 64 := (flipped b).isLt
  rw [size] at sign ⊢
  by_cases set : 0x8000000000000000 ≤ b.toNat
  · rw [if_pos set] at sign
    change 0 = _ at sign
    omega
  · rw [if_neg set] at sign
    change 1 = _ at sign
    omega

theorem ofBitVec_sign_eq (x : Number) :
    Sign.ofBitVec (@unpackSign .binary64 x.toBits.toBitVec) = sign x := by
  rw [ofBitVec_sign, show x.toBits.toBitVec.toNat = x.toBits.toNat from rfl]
  simp [sign, isNegative]

theorem mantissa_lt (x : Number) :
    (@unpackMantissa .binary64 x.toBits.toBitVec).toNat < 2 ^ 52 := by
  rw [mantissa_toNat]
  exact Nat.mod_lt _ (by decide)

/-- The magnitude of a double is its exponent in front of its mantissa. -/
theorem magnitude_eq (x : Number) :
    magnitude x = (@unpackExponent .binary64 x.toBits.toBitVec).toNat * 2 ^ 52 +
      (@unpackMantissa .binary64 x.toBits.toBitVec).toNat := by
  rw [exponent_toNat, mantissa_toNat, show x.toBits.toBitVec.toNat = x.toBits.toNat from rfl]
  change x.toBits.toNat % 0x8000000000000000 = _
  omega

/-- Without an exponent a double has as many units as its mantissa says. -/
theorem worth_subnormal {x : Number}
    (empty : (@unpackExponent .binary64 x.toBits.toBitVec).toNat = 0) :
    ((@unpackMantissa .binary64 x.toBits.toBitVec).toNat : ℚ) *
        2 ^ (((0 + 1 : ℕ) : ℤ) - (1023 + 52)) =
      units (magnitude x) / unitsPerOne := by
  rw [worth_eq, pow_zero, mul_one, magnitude_eq, units_eq _ (mantissa_lt x), if_pos empty]

/-- With an exponent a one stands in front of the mantissa, and the units are doubled. -/
theorem worth_normal {x : Number} {shift : ℕ}
    (scaled : (@unpackExponent .binary64 x.toBits.toBitVec).toNat = shift + 1) :
    ((1#1 ++ @unpackMantissa .binary64 x.toBits.toBitVec).toNat : ℚ) *
        2 ^ (((shift + 1 : ℕ) : ℤ) - (1023 + 52)) =
      units (magnitude x) / unitsPerOne := by
  rw [worth_eq, toNat_one_append, magnitude_eq, units_eq _ (mantissa_lt x), scaled,
    if_neg (Nat.succ_ne_zero shift), Nat.add_sub_cancel]

end ValueLemmas

open ValueLemmas BitLemmas Float.Model Float.Model.UnpackedFloat in
/-- The parts of a double are as its magnitude says. -/
theorem unpacked (x : Number) : Unpacked x x.toModel.unpack := by
  have parts := magnitude_eq x
  have small := mantissa_lt x
  have full : _ ↔ infinity ≤ magnitude x := exponent_full_iff x.toBits.toBitVec
  have top : infinity = 2047 * 2 ^ 52 := rfl
  change Unpacked x (UnpackedFloat.unpack .binary64 x.toBits.toBitVec)
  rw [UnpackedFloat.unpack, ofBitVec_sign_eq]
  dsimp only
  split
  next isFull =>
    have filled : (@unpackExponent .binary64 x.toBits.toBitVec).toNat = 2047 :=
      congrArg BitVec.toNat isFull
    split
    next isZero =>
      have none : (@unpackMantissa .binary64 x.toBits.toBitVec).toNat = 0 :=
        congrArg BitVec.toNat isZero
      exact .infinity (by omega)
    next notZero =>
      have some : (@unpackMantissa .binary64 x.toBits.toBitVec).toNat ≠ 0 :=
        fun none => notZero (BitVec.eq_of_toNat_eq none)
      exact .notANumber (by omega)
  next notFull =>
    have below : magnitude x < infinity := Nat.lt_of_not_le fun above => notFull (full.2 above)
    split
    next isEmpty =>
      have empty : (@unpackExponent .binary64 x.toBits.toBitVec).toNat = 0 :=
        congrArg BitVec.toNat isEmpty
      split
      next isZero =>
        have none : (@unpackMantissa .binary64 x.toBits.toBitVec).toNat = 0 :=
          congrArg BitVec.toNat isZero
        exact .zero (by omega)
      next notZero =>
        have some : (@unpackMantissa .binary64 x.toBits.toBitVec).toNat ≠ 0 :=
          fun none => notZero (BitVec.eq_of_toNat_eq none)
        refine .finite _ (by omega) below ?_
        rw [empty]
        exact worth_subnormal empty
    next notEmpty =>
      have some : (@unpackExponent .binary64 x.toBits.toBitVec).toNat ≠ 0 :=
        fun none => notEmpty (BitVec.eq_of_toNat_eq none)
      obtain ⟨shift, scaled⟩ := Nat.exists_eq_succ_of_ne_zero some
      refine .finite _ (by omega) below ?_
      rw [scaled]
      exact worth_normal scaled

/-- A double above zero has no sign. -/
theorem of_pos {x : Number} (positive : 0 < x) :
    isNegative x = false ∧ 0 < magnitude x ∧ magnitude x ≤ infinity := by
  have less : Float.Model.UnpackedFloat.lt (.zero .positive) x.toModel.unpack = true :=
    of_decide_eq_true positive
  have parts := unpacked x
  have top : infinity = 2047 * 2 ^ 52 := rfl
  cases negative : isNegative x with
  | false =>
    generalize x.toModel.unpack = parts at *
    cases parts with
    | notANumber => cases less
    | infinity full => exact ⟨rfl, by omega, by omega⟩
    | zero => cases less
    | finite => exact ⟨rfl, by omega, by omega⟩
  | true =>
    have signed : sign x = .negative := by rw [sign, negative, if_pos rfl]
    generalize x.toModel.unpack = parts at *
    cases parts with
    | notANumber => cases less
    | infinity | zero | finite =>
      rw [signed] at less
      cases less

open ValueLemmas BitLemmas Float.Model Float.Model.UnpackedFloat in
/-- Negation flips the sign of a number and nothing else. -/
theorem toBits_neg {x : Number} (number : magnitude x ≤ infinity) :
    magnitude (-x) = magnitude x ∧ isNegative (-x) = !isNegative x := by
  have negated : (-x).toBits.toBitVec =
      UnpackedFloat.pack .binary64 (UnpackedFloat.unpack .binary64 x.toBits.toBitVec).neg := rfl
  obtain ⟨rest, sign⟩ := toNat_flipped x.toBits.toBitVec
  rw [← unpack_flipped, pack_unpack, if_neg (not_isNaNBits (rest ▸ number))] at negated
  rw [← negated] at rest sign
  exact ⟨rest, by rw [isNegative, isNegative, ← decide_not]; exact decide_eq_decide.2 sign⟩

end Double

/-- The value of a finite double: its units, with the sign that its sign bit says. -/
theorem Number.value_eq {x : Number} (finite : x.isFinite = true) :
    x.value = (if Double.isNegative x then -1 else 1) *
      (Double.units (Double.magnitude x) / Double.unitsPerOne) := by
  have below := (Double.isFinite_iff x).1 finite
  have parts := Double.unpacked x
  rw [value]
  generalize x.toModel.unpack = u at *
  cases parts with
  | notANumber above => exact absurd below (Nat.lt_asymm above)
  | infinity full => exact absurd below (Nat.not_lt_of_ge (Nat.le_of_eq full.symm))
  | zero empty =>
    have none : Double.units 0 = 0 := rfl
    rw [empty, none, Nat.cast_zero, zero_div, mul_zero]
  | finite positive above below worth =>
    rw [← worth, Double.sign]
    cases Double.isNegative x <;> simp

namespace Number

variable {x : Number}

theorem abs_value (finite : x.isFinite = true) :
    |x.value| = Double.units (Double.magnitude x) / Double.unitsPerOne := by
  have size : (0 : ℚ) ≤ Double.units (Double.magnitude x) / Double.unitsPerOne :=
    div_nonneg (Nat.cast_nonneg _) (Nat.cast_nonneg _)
  rw [value_eq finite, abs_mul, abs_of_nonneg size]
  split
  · rw [abs_neg, abs_one, one_mul]
  · rw [abs_one, one_mul]

theorem magnitude_pos (finite : x.isFinite = true) (nonzero : x.value ≠ 0) :
    0 < Double.magnitude x := by
  refine Nat.pos_of_ne_zero fun empty => nonzero ?_
  have none : Double.units 0 = 0 := rfl
  rw [value_eq finite, empty, none, Nat.cast_zero, zero_div, mul_zero]

/-- A finite number other than zero has its sign bit set if it is below zero. -/
theorem isNegative_eq (finite : x.isFinite = true) (nonzero : x.value ≠ 0) :
    Double.isNegative x = decide (x.value < 0) := by
  have size := abs_pos.2 nonzero
  rw [abs_value finite] at size
  rw [value_eq finite]
  generalize (Double.units (Double.magnitude x) : ℚ) / Double.unitsPerOne = q at *
  cases Double.isNegative x with
  | false => simpa using le_of_lt size
  | true => simpa using size

end Number

end LineBasic
