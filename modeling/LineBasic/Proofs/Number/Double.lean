import LineBasic.Number.Double
import Mathlib

/-!
# The bits of a double

The bits of a double that is a number are kept when it is made from them, so a double that is made
from a sign and a magnitude has that sign and that magnitude. It is finite exactly if its magnitude
is below that of the infinities.

Results:
1. `toBits_ofBits`: the bits of a number are kept.
2. `isFinite_iff`: which doubles are finite.
3. `magnitude_ofMagnitude`, `isNegative_ofMagnitude`: the magnitude and the sign of a double that
   was made from them.
4. `nearest_lt_infinity`: what is no more than the greatest double does not become infinite.
5. `ofDecimal_spec`: how a decimal is read.
-/

namespace LineBasic

namespace Double

/-! ## The parts of the bits -/

namespace BitLemmas

open Float.Model Float.Model.UnpackedFloat

theorem exponent_toNat (b : BitVec Format.binary64.numBits) :
    (unpackExponent b).toNat = b.toNat / 2 ^ 52 % 2 ^ 11 := by
  simp [unpackExponent, BitVec.extractLsb_toNat, Nat.shiftRight_eq_div_pow]

theorem mantissa_toNat (b : BitVec Format.binary64.numBits) :
    (unpackMantissa b).toNat = b.toNat % 2 ^ 52 := by
  simp [unpackMantissa, BitVec.extractLsb_toNat]

/-- A double is infinite or no number exactly if all bits of its exponent are set. -/
theorem isFinite_unpack (b : BitVec Format.binary64.numBits) :
    (UnpackedFloat.unpack Format.binary64 b).isFinite = true ↔ unpackExponent b ≠ -1#_ := by
  simp only [UnpackedFloat.unpack]
  by_cases full : unpackExponent b = -1#_
  · rw [if_pos full]
    by_cases zero : unpackMantissa b = 0#_
    · simp [if_pos zero, UnpackedFloat.isFinite, full]
    · simp [if_neg zero, UnpackedFloat.isFinite, full]
  · rw [if_neg full]
    refine iff_of_true ?_ full
    by_cases empty : unpackExponent b = 0#_
    · rw [if_pos empty]
      by_cases zero : unpackMantissa b = 0#_
      · rw [dif_pos zero]
        rfl
      · rw [dif_neg zero]
        rfl
    · rw [if_neg empty]
      rfl

/-- All bits of the exponent are set from the magnitude of the infinities on. -/
theorem exponent_full_iff (b : BitVec Format.binary64.numBits) :
    unpackExponent b = -1#_ ↔ infinity ≤ b.toNat % signBit := by
  have width : b.toNat < 2 ^ 64 := b.isLt
  have exponent := exponent_toNat b
  have full : unpackExponent b = -1#_ ↔ (unpackExponent b).toNat = 2047 :=
    ⟨fun h => congrArg BitVec.toNat h, fun h => BitVec.eq_of_toNat_eq h⟩
  rw [full, exponent]
  show _ ↔ 0x7ff0000000000000 ≤ b.toNat % 0x8000000000000000
  omega

/-- What is no more than the infinities is a number. -/
theorem not_isNaNBits {b : BitVec Format.binary64.numBits} (number : b.toNat % signBit ≤ infinity) :
    ¬ isNaNBits b := by
  rw [isNaNBits, decide_eq_true_iff]
  rintro ⟨full, mantissa⟩
  have large := (exponent_full_iff b).1 full
  refine mantissa (BitVec.eq_of_toNat_eq ?_)
  rw [mantissa_toNat]
  change b.toNat % 2 ^ 52 = 0
  change 0x7ff0000000000000 ≤ b.toNat % 0x8000000000000000 at large
  change b.toNat % 0x8000000000000000 ≤ 0x7ff0000000000000 at number
  omega

end BitLemmas

open BitLemmas

/-! ## Doubles and their magnitudes -/

open Float.Model.UnpackedFloat in
/-- The bits of a number are kept when a double is made from them. -/
theorem toBits_ofBits {bits : UInt64} (number : bits.toNat % signBit ≤ infinity) :
    (Float.ofBits bits).toBits = bits := by
  have notNaN : ¬ @isNaNBits .binary64 bits.toBitVec := not_isNaNBits number
  have whole := @pack_unpack .binary64 bits.toBitVec (by decide)
  rw [if_neg notNaN] at whole
  exact congrArg UInt64.ofBitVec whole

/-- The finite doubles are those whose magnitude is below that of the infinities. -/
theorem isFinite_iff (x : Number) : x.isFinite = true ↔ magnitude x < infinity := by
  refine (isFinite_unpack x.toBits.toBitVec).trans ?_
  rw [Ne, exponent_full_iff, Nat.not_le]
  rfl

variable {negative : Bool} {m : Nat}

theorem toNat_toBits_ofMagnitude (number : m ≤ infinity) :
    (ofMagnitude negative m).toBits.toNat = (if negative then signBit else 0) + m := by
  have small : m < 0x8000000000000000 := Nat.lt_of_le_of_lt number (by decide)
  have fits : (if negative then signBit else 0) + m < 2 ^ 64 := by
    cases negative
    · simp only [Bool.false_eq_true, if_false]
      omega
    · show 0x8000000000000000 + m < 2 ^ 64
      omega
  have bits : (UInt64.ofNat ((if negative then signBit else 0) + m)).toNat =
      (if negative then signBit else 0) + m := UInt64.toNat_ofNat_of_lt' fits
  rw [ofMagnitude, toBits_ofBits, bits]
  rw [bits]
  cases negative
  · simp only [Bool.false_eq_true, if_false, Nat.zero_add]
    exact Nat.le_trans (Nat.mod_le _ _) number
  · simp only [if_true, Nat.add_mod_left]
    exact Nat.le_trans (Nat.mod_le _ _) number

theorem magnitude_ofMagnitude (number : m ≤ infinity) :
    magnitude (ofMagnitude negative m) = m := by
  have small : m < signBit := Nat.lt_of_le_of_lt number (by decide)
  rw [magnitude, toNat_toBits_ofMagnitude number]
  cases negative
  · simpa using Nat.mod_eq_of_lt small
  · simpa using Nat.mod_eq_of_lt small

theorem isNegative_ofMagnitude (number : m ≤ infinity) :
    isNegative (ofMagnitude negative m) = negative := by
  have small : m < signBit := Nat.lt_of_le_of_lt number (by decide)
  rw [isNegative, toNat_toBits_ofMagnitude number]
  cases negative
  · simpa using small
  · simp

/-! ## The nearest double -/

theorem unitsPerOne_pos : 0 < unitsPerOne := by decide +kernel

theorem cast_unitsPerOne_pos : (0 : ℚ) < unitsPerOne := Nat.cast_pos.2 unitsPerOne_pos

/-- How far the mantissa of the greatest finite double is shifted. -/
def largestShift : Nat := 2045

/-- The units of the greatest finite double: all bits of its mantissa are set. -/
def largestUnits : Nat := 2 ^ largestShift * 9007199254740991

theorem mul_le_largestUnits {mantissa shift : Nat} (hm : mantissa ≤ 9007199254740991)
    (hs : shift ≤ largestShift) : mantissa * 2 ^ shift ≤ largestUnits := by
  have grows : 2 ^ shift ≤ 2 ^ largestShift := Nat.pow_le_pow_right (by decide) hs
  have largest : largestUnits = 2 ^ largestShift * 9007199254740991 := rfl
  rw [largest, Nat.mul_comm mantissa]
  exact Nat.mul_le_mul grows hm

theorem nearest_le_infinity (num den : Nat) : nearest num den ≤ infinity := Nat.min_le_right ..

/-- What is no more than the greatest double is nearest to a finite one. -/
theorem nearest_lt_infinity {num den : Nat} (hden : 0 < den)
    (bounded : num * unitsPerOne ≤ den * largestUnits) : nearest num den < infinity := by
  have whole_le : num * unitsPerOne / den ≤ largestUnits := Nat.div_le_of_le_mul bounded
  have split := Nat.lt_mul_div_succ (num * unitsPerOne) hden
  unfold nearest
  generalize num * unitsPerOne = units at *
  generalize units / den = whole at *
  have log_lt : whole.log2 < 2098 := by
    by_cases zero : whole = 0
    · rw [zero]
      decide
    · refine (Nat.log2_lt zero).2 (Nat.lt_of_le_of_lt whole_le ?_)
      decide +kernel
  have shift_le : whole.log2 - 52 ≤ largestShift := by
    unfold largestShift
    omega
  have whole_lt : whole + 1 ≤ 2 ^ (whole.log2 - 52) * 2 ^ 53 := by
    have top : whole < 2 ^ (whole.log2 + 1) := Nat.lt_log2_self
    have grows : 2 ^ (whole.log2 + 1) ≤ 2 ^ (whole.log2 - 52 + 53) :=
      Nat.pow_le_pow_right (by decide) (by omega)
    rw [Nat.pow_add 2 (whole.log2 - 52) 53] at grows
    exact Nat.le_trans top grows
  simp only [Nat.pow_eq]
  generalize whole.log2 - 52 = shift at *
  have positive : 0 < den * 2 ^ shift := Nat.mul_pos hden (Nat.pow_pos (by decide))
  refine Nat.lt_of_le_of_lt (Nat.min_le_left ..) ?_
  have size : mantissaSize = 4503599627370496 := rfl
  have top : infinity = 2047 * 4503599627370496 := rfl
  rcases Nat.lt_or_eq_of_le shift_le with below | last
  · change shift < 2045 at below
    have mantissa : roundDiv units (den * 2 ^ shift) ≤ 9007199254740992 := by
      refine roundDiv_le positive ?_
      rw [Nat.mul_assoc]
      exact Nat.le_of_lt (Nat.lt_of_lt_of_le split (Nat.mul_le_mul_left den whole_lt))
    rw [size, top]
    omega
  · -- The greatest exponent leaves room for every mantissa but one that is rounded up.
    have mantissa : roundDiv units (den * 2 ^ shift) ≤ 9007199254740991 := by
      refine roundDiv_le positive ?_
      rw [Nat.mul_assoc, last]
      exact bounded
    have full : shift = 2045 := last
    rw [size, top]
    omega

/-- The magnitude that a decimal is read as: the nearest, unless the size of the decimal can be told
from its exponent and the number of its digits alone. -/
inductive Reads (digits : Nat) (exponent : Int) : Nat → Prop
  | zero (none : digits = 0) : Reads digits exponent 0
  | large (some : digits ≠ 0) (above : 310 < exponent) : Reads digits exponent infinity
  | small (below : exponent + (digits.log2 + 1) < -330) : Reads digits exponent 0
  | nearest {num den : Nat} (positive : 0 < den)
      (quotient : (num / den : ℚ) = digits * 10 ^ exponent) :
      Reads digits exponent (nearest num den)

theorem Reads.le_infinity {digits : Nat} {exponent : Int} {m : Nat}
    (reads : Reads digits exponent m) : m ≤ infinity := by
  cases reads with
  | zero | small => exact Nat.zero_le _
  | large => exact Nat.le_refl _
  | nearest => exact nearest_le_infinity ..

/-- How a decimal is read. -/
theorem ofDecimal_spec (negative : Bool) (digits : Nat) (exponent : Int) :
    Reads digits exponent (magnitude (ofDecimal negative digits exponent)) ∧
      isNegative (ofDecimal negative digits exponent) = negative := by
  suffices read : ∃ m, Reads digits exponent m ∧
      ofDecimal negative digits exponent = ofMagnitude negative m by
    obtain ⟨m, reads, value⟩ := read
    rw [value, magnitude_ofMagnitude reads.le_infinity]
    exact ⟨reads, isNegative_ofMagnitude reads.le_infinity⟩
  refine ⟨_, ?_, rfl⟩
  split
  next none => exact .zero none
  next some =>
    split
    next above => exact .large some above
    next =>
      split
      next below => exact .small below
      next =>
        split
        next whole =>
          obtain ⟨k, rfl⟩ := Int.eq_ofNat_of_zero_le whole
          exact .nearest Nat.one_pos (by simp)
        next notWhole =>
          obtain ⟨k, rfl⟩ : ∃ k : Nat, exponent = -(k : Int) := ⟨(-exponent).toNat, by omega⟩
          exact .nearest (Nat.pow_pos (by decide)) (by simp [div_eq_mul_inv])

end Double

end LineBasic
