import LineBasic.Number.Places
import Mathlib.Algebra.Group.Nat.Defs

/-!
# The number of digits is right

`decimalPlaces n` is the one number `k` for which `n` lies from `10 ^ (k - 1)` up to but not
including `10 ^ k`: see `decimalPlaces_spec`.
-/

namespace LineBasic

theorem countPlaces_spec {n bound k : Nat} (above : n < 10 ^ (k + bound)) :
    n < 10 ^ countPlaces n bound k ∧
      (countPlaces n bound k = k ∨ 10 ^ (countPlaces n bound k - 1) ≤ n) := by
  induction bound generalizing k with
  | zero => exact ⟨above, .inl rfl⟩
  | succ bound ih =>
    unfold countPlaces
    split
    next h => exact ⟨h, .inl rfl⟩
    next h =>
      have ⟨below, least⟩ := ih (k := k + 1) (by rwa [Nat.add_right_comm])
      refine ⟨below, .inr ?_⟩
      rcases least with least | least
      · rw [least, Nat.add_sub_cancel]
        exact Nat.le_of_not_lt h
      · exact least

theorem ten_pow_le_two_pow (n : Nat) : 10 ^ (n * 3 / 10) ≤ 2 ^ n := by
  have tenfold : (10 ^ (n * 3 / 10)) ^ 10 ≤ (2 ^ n) ^ 10 :=
    calc (10 ^ (n * 3 / 10)) ^ 10 = 10 ^ (n * 3 / 10 * 10) := (Nat.pow_mul ..).symm
      _ ≤ 10 ^ (3 * n) := Nat.pow_le_pow_right (by decide) (by omega)
      _ = (10 ^ 3) ^ n := Nat.pow_mul ..
      _ ≤ (2 ^ 10) ^ n := Nat.pow_le_pow_left (by decide) n
      _ = (2 ^ n) ^ 10 := by rw [← Nat.pow_mul, ← Nat.pow_mul, Nat.mul_comm]
  exact (Nat.pow_le_pow_iff_left (by decide)).1 tenfold

theorem decimalPlaces_spec {n : Nat} (positive : 0 < n) :
    10 ^ (decimalPlaces n - 1) ≤ n ∧ n < 10 ^ decimalPlaces n := by
  have lower : 2 ^ n.log2 ≤ n := Nat.log2_self_le (Nat.pos_iff_ne_zero.1 positive)
  have upper : n < 10 ^ (n.log2 * 3 / 10 + (n.log2 + 1)) :=
    calc n < 2 ^ (n.log2 + 1) := Nat.lt_log2_self
      _ ≤ 10 ^ (n.log2 + 1) := Nat.pow_le_pow_left (by decide) _
      _ ≤ _ := Nat.pow_le_pow_right (by decide) (by omega)
  have ⟨below, least⟩ := countPlaces_spec upper
  refine ⟨?_, below⟩
  rcases least with least | least
  · rw [decimalPlaces, least]
    exact Nat.le_trans (Nat.pow_le_pow_right (by decide) (Nat.sub_le _ _))
      (Nat.le_trans (ten_pow_le_two_pow _) lower)
  · exact least

end LineBasic
