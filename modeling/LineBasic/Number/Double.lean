import LineBasic.Number.Rounding

/-!
# Doubles as whole numbers of units

Every finite double is a whole number of units of `2 ^ -1074`, the least double above zero. So exact
questions about doubles are questions about natural numbers: `units` gives the number of units
behind the 63 bits of a magnitude, and `nearest` gives the magnitude whose double is nearest to a
quotient, a half going to the even mantissa and a quotient that is too large going to infinity.
-/

namespace LineBasic

/-- The values of the language: doubles, with their infinities and the one value that is not a
number. -/
abbrev Number := Float

namespace Double

/-- How many units make one. -/
def unitsPerOne : Nat := Nat.pow 2 1074

/-- How many magnitudes share an exponent: a mantissa has 52 bits below its highest. -/
def mantissaSize : Nat := Nat.pow 2 52

/-- The bit of the sign. The bits below it are the magnitude. -/
def signBit : Nat := Nat.pow 2 63

/-- The magnitude of the infinities. Every smaller one belongs to a finite double. -/
def infinity : Nat := 0x7ff0000000000000

/-- How far the mantissa behind a magnitude is shifted to give its number of units. -/
def shift (magnitude : Nat) : Nat := magnitude / mantissaSize - 1

/-- The number of units behind a finite magnitude. -/
def units (magnitude : Nat) : Nat :=
  (magnitude - shift magnitude * mantissaSize) * Nat.pow 2 (shift magnitude)

/-- The magnitude of the double nearest to `num / den`. -/
def nearest (num den : Nat) : Nat :=
  let whole := num * unitsPerOne / den
  let shift := whole.log2 - 52
  let mantissa := roundDiv (num * unitsPerOne) (den * Nat.pow 2 shift)
  min (shift * mantissaSize + mantissa) infinity

/-- The bits of a double without its sign. -/
def magnitude (x : Number) : Nat := x.toBits.toNat % signBit

/-- Whether the sign bit is set. -/
def isNegative (x : Number) : Bool := signBit ≤ x.toBits.toNat

/-- The double with a given sign and magnitude. -/
def ofMagnitude (negative : Bool) (magnitude : Nat) : Number :=
  Float.ofBits (UInt64.ofNat ((if negative then signBit else 0) + magnitude))

/-- The double nearest to `digits * 10 ^ exponent`, with a sign. Exponents far beyond the range of
doubles are settled without working out the power of ten: a whole number other than zero times
`10 ^ 311` is above every double, and what is less than `10 ^ -330` is less than half a unit. -/
def ofDecimal (negative : Bool) (digits : Nat) (exponent : Int) : Number :=
  ofMagnitude negative <|
    if digits = 0 then 0
    else if 310 < exponent then infinity
    else if exponent + (digits.log2 + 1) < -330 then 0
    else if 0 ≤ exponent then nearest (digits * Nat.pow 10 exponent.toNat) 1
    else nearest digits (Nat.pow 10 (-exponent).toNat)

end Double

end LineBasic
