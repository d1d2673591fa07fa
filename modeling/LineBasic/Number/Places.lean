/-!
# How many digits a number has

`decimalPlaces n` is the number of decimal digits of `n`. It counts up from a lower bound that the
binary logarithm gives, so it takes a few comparisons only.
-/

namespace LineBasic

/-- The first of `k`, `k + 1`, … whose power of ten is above `n`, unless `bound` are passed over. -/
def countPlaces (n : Nat) : Nat → Nat → Nat
  | 0, k => k
  | bound + 1, k => if n < Nat.pow 10 k then k else countPlaces n bound (k + 1)

/-- How many decimal digits a number above zero has. As `10 ^ 3` is below `2 ^ 10`, it has at least
three for every ten binary digits. -/
def decimalPlaces (n : Nat) : Nat := countPlaces n (n.log2 + 1) (n.log2 * 3 / 10)

end LineBasic
