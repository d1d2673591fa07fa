import LineBasic.Number.Double
import LineBasic.Number.Places

/-!
# Numbers rounded to six digits

`Number.format` writes a number with six significant digits. The exact value is rounded once, a half
going to the even digit (`SixDigits.ofUnits`), and then laid out: numbers of moderate size in
positional notation, all others with an exponent. Zeros behind the last digit other than zero are
dropped.
-/

namespace LineBasic

/-- Six decimal digits and the power of ten of the first: `digits * 10 ^ (exponent - 5)`. -/
structure SixDigits where
  digits : Nat
  exponent : Int
  deriving DecidableEq, Repr

/-- How numbers are laid out: the exponents written in positional notation, the mark of an exponent
and how many digits it has at least. -/
structure Layout where
  leastPositional : Int
  positionalBelow : Int
  mark : Char
  exponentDigits : Nat
  deriving DecidableEq, Repr

/-- From `0.0001` up to `999999` numbers are written in positional notation. An exponent is written
with its sign and two digits or more. -/
def Layout.standard : Layout := ⟨-4, 6, 'e', 2⟩

namespace SixDigits

/-- A power of ten by which every double above zero becomes a number with seven digits or more
before the point. -/
def lift : Nat := 330

/-- The value of a positive number of units, rounded to six digits. -/
def ofUnits (units : Nat) : SixDigits :=
  let lifted := units * Nat.pow 10 lift
  let places := decimalPlaces (lifted / Double.unitsPerOne)
  let digits := roundDiv lifted (Double.unitsPerOne * Nat.pow 10 (places - 6))
  if digits = 1000000 then ⟨100000, places - lift⟩ else ⟨digits, places - lift - 1⟩

/-- Without zeros at the end. -/
def dropZeros (digits : List Char) : List Char :=
  (digits.reverse.dropWhile (· == '0')).reverse

/-- Digits before and behind the point; the point is left out if no digits stand behind it. -/
def pointed (whole fraction : List Char) : List Char :=
  if fraction = [] then whole else whole ++ '.' :: fraction

/-- Positional notation. -/
def positional (n : SixDigits) : List Char :=
  let digits := Nat.toDigits 10 n.digits
  if n.exponent < 0 then
    pointed ['0'] (List.replicate (-n.exponent - 1).toNat '0' ++ dropZeros digits)
  else
    let places := n.exponent.toNat + 1
    pointed (digits.take places) (dropZeros (digits.drop places))

/-- An exponent: the mark, the sign, and the digits filled up with zeros in front. -/
def exponentText (layout : Layout) (exponent : Int) : List Char :=
  let digits := Nat.toDigits 10 exponent.natAbs
  layout.mark :: (if exponent < 0 then '-' else '+') ::
    (List.replicate (layout.exponentDigits - digits.length) '0' ++ digits)

/-- Notation with an exponent: one digit before the point. -/
def scientific (layout : Layout) (n : SixDigits) : List Char :=
  let digits := Nat.toDigits 10 n.digits
  pointed (digits.take 1) (dropZeros (digits.drop 1)) ++ exponentText layout n.exponent

/-- The notation that the layout asks for. -/
def text (layout : Layout) (n : SixDigits) : List Char :=
  if layout.leastPositional ≤ n.exponent ∧ n.exponent < layout.positionalBelow then n.positional
  else n.scientific layout

end SixDigits

/-- Writes a number. Zero is written without a sign. -/
def Number.format (x : Number) : String :=
  let magnitude := Double.magnitude x
  if Double.infinity < magnitude then "nan"
  else if magnitude = 0 then "0"
  else
    let size :=
      if magnitude = Double.infinity then "inf".toList
      else (SixDigits.ofUnits (Double.units magnitude)).text .standard
    String.ofList (if Double.isNegative x then '-' :: size else size)

end LineBasic
