/-!
# Rounding a quotient

`roundDiv a b` is the whole number nearest to `a / b`; of two that are equally near it is the even
one. Both reading and writing of numbers round by it, and by nothing else.
-/

namespace LineBasic

/-- The whole number nearest to `a / b`; a half goes to the even neighbour. -/
def roundDiv (a b : Nat) : Nat :=
  let floor := a / b
  let twice := 2 * (a % b)
  if twice < b then floor
  else if b < twice then floor + 1
  else if floor % 2 = 0 then floor
  else floor + 1

/-- The rounded quotient is off by half a unit at most. -/
theorem roundDiv_near (a : Nat) {b : Nat} (hb : 0 < b) :
    2 * a ≤ 2 * (b * roundDiv a b) + b ∧ 2 * (b * roundDiv a b) ≤ 2 * a + b := by
  have split := Nat.div_add_mod a b
  have small := Nat.mod_lt a hb
  simp only [roundDiv]
  split
  · omega
  · split
    · rw [Nat.mul_add]; omega
    · split
      · omega
      · rw [Nat.mul_add]; omega

/-- Rounding goes no further than a whole number on the way. -/
theorem roundDiv_le {a b q : Nat} (hb : 0 < b) (h : a ≤ b * q) : roundDiv a b ≤ q := by
  have near := (roundDiv_near a hb).2
  refine Nat.le_of_not_lt fun above => ?_
  have further : b * (q + 1) ≤ b * roundDiv a b := Nat.mul_le_mul_left b above
  rw [Nat.mul_add] at further
  omega

theorem le_roundDiv {a b q : Nat} (hb : 0 < b) (h : b * q ≤ a) : q ≤ roundDiv a b := by
  have near := (roundDiv_near a hb).1
  refine Nat.le_of_not_lt fun below => ?_
  have further : b * (roundDiv a b + 1) ≤ b * q := Nat.mul_le_mul_left b below
  rw [Nat.mul_add] at further
  omega

end LineBasic
