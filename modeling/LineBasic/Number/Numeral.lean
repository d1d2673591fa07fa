import LineBasic.Number.Double
import LineBasic.Text

/-!
# Written numbers

A numeral is a run of digits with at most one point and, behind it, perhaps an exponent: `12`, `.5`,
`1.`, `2.5E-3`. `Numeral.scan` takes the longest numeral off the front of a text; an `e` belongs to
it only if an exponent with at least one digit follows.

`Number.convert` makes a number of a text that is a numeral with a digit before its exponent, perhaps
behind a sign: the double nearest to the decimal written. It knows some words as well, such as
`inf`. `Number.read` lets it convert plain decimal numbers only (`Number.isPlain`), with white space
around them.
-/

namespace LineBasic

/-- The exponent of a numeral, as written. -/
structure Exponent where
  mark : Char
  sign : Option Char
  digits : List Char
  deriving DecidableEq, Repr

/-- A number without a sign, as written: the digits before the point, those behind it if there is a
point, and the exponent. -/
structure Numeral where
  whole : List Char
  fraction : Option (List Char)
  exponent : Option Exponent
  deriving DecidableEq, Repr

namespace Exponent

/-- The characters of an exponent. -/
def text (e : Exponent) : List Char := e.mark :: (e.sign.toList ++ e.digits)

/-- The power of ten that an exponent stands for. -/
def value (e : Exponent) : Int :=
  let size := Nat.ofDigitChars 10 e.digits 0
  if e.sign = some '-' then -size else size

/-- Takes one sign off the front of a text. -/
def scanSign : List Char → Option Char × List Char
  | [] => (none, [])
  | c :: cs => if c = '+' ∨ c = '-' then (some c, cs) else (none, c :: cs)

/-- Takes an exponent off the front of a text, if digits follow its mark and sign. -/
def scan : List Char → Option Exponent × List Char
  | [] => (none, [])
  | mark :: cs =>
    let (sign, rest) := scanSign cs
    let digits := rest.takeWhile Char.isDigit
    if (mark = 'e' ∨ mark = 'E') ∧ digits ≠ [] then
      (some ⟨mark, sign, digits⟩, rest.dropWhile Char.isDigit)
    else (none, mark :: cs)

end Exponent

namespace Numeral

/-- The characters of a numeral. -/
def text (n : Numeral) : List Char :=
  n.whole ++ (n.fraction.elim [] ('.' :: ·)) ++ n.exponent.elim [] Exponent.text

/-- The digits before the exponent. -/
def digits (n : Numeral) : List Char := n.whole ++ n.fraction.getD []

/-- Takes a point and the digits behind it off the front of a text. -/
def scanFraction : List Char → Option (List Char) × List Char
  | '.' :: cs => (some (cs.takeWhile Char.isDigit), cs.dropWhile Char.isDigit)
  | cs => (none, cs)

/-- Takes the longest numeral off the front of a text. -/
def scan (cs : List Char) : Numeral × List Char :=
  let (fraction, rest) := scanFraction (cs.dropWhile Char.isDigit)
  let (exponent, rest) := Exponent.scan rest
  (⟨cs.takeWhile Char.isDigit, fraction, exponent⟩, rest)

/-- The number nearest to a numeral behind a sign. -/
def toNumber (negative : Bool) (n : Numeral) : Number :=
  let behindPoint : Int := (n.fraction.getD []).length
  Double.ofDecimal negative (Nat.ofDigitChars 10 n.digits 0)
    (n.exponent.elim 0 Exponent.value - behindPoint)

end Numeral

namespace Number

/-- Digits with at most one point among them, and at least one digit. -/
def isMantissa (cs : List Char) : Bool :=
  cs.all (fun c => c.isDigit || c == '.') && cs.any Char.isDigit && cs.count '.' ≤ 1

/-- At least one digit, perhaps behind a sign. -/
def isExponent (cs : List Char) : Bool :=
  let digits := (Exponent.scanSign cs).2
  !digits.isEmpty && digits.all Char.isDigit

/-- Whether a text is a plain decimal number: perhaps a sign, a mantissa, and perhaps an exponent
behind the first mark. -/
def isPlain (cs : List Char) : Bool :=
  let body := (Exponent.scanSign cs).2
  let inMantissa (c : Char) : Bool := c ≠ 'e' ∧ c ≠ 'E'
  isMantissa (body.takeWhile inMantissa) && (body.dropWhile inMantissa).tail?.all isExponent

/-- The magnitude of what is no number. -/
def quietNaN : Nat := 0x7ff8000000000000

/-- What words stand for. They are written in small letters here. -/
def ofWord? (negative : Bool) (word : String) : Option Number :=
  if word = "inf" ∨ word = "infinity" then some (Double.ofMagnitude negative Double.infinity)
  else if word = "nan" then some (Double.ofMagnitude negative quietNaN)
  else none

/-- Converts a text to a number of any kind. The case of letters does not matter. -/
def convert (cs : List Char) : Option Number :=
  let (sign, body) := Exponent.scanSign cs
  let (numeral, rest) := Numeral.scan body
  if rest = [] ∧ numeral.digits ≠ [] then some (numeral.toNumber (sign = some '-'))
  else ofWord? (sign = some '-') (String.ofList (body.map Char.toLower))

/-- Reads a text as a number. -/
def read (s : String) : Option Number :=
  let text := Text.trim s.toList
  if isPlain text then convert text else none

end Number

/-! ### Nothing is lost in scanning -/

theorem Exponent.scanSign_append (cs : List Char) :
    (scanSign cs).1.toList ++ (scanSign cs).2 = cs := by
  cases cs with
  | nil => rfl
  | cons c cs => simp only [scanSign]; split <;> rfl

theorem Exponent.scan_append (cs : List Char) :
    (scan cs).1.elim [] text ++ (scan cs).2 = cs := by
  cases cs with
  | nil => rfl
  | cons mark cs =>
    simp only [scan]
    split
    · have sign := scanSign_append cs
      simp only [Option.elim, text, List.cons_append, List.append_assoc,
        List.takeWhile_append_dropWhile, sign]
    · rfl

theorem Numeral.scanFraction_append (cs : List Char) :
    (scanFraction cs).1.elim [] ('.' :: ·) ++ (scanFraction cs).2 = cs := by
  unfold scanFraction
  split
  · simp
  · simp

theorem Numeral.scan_append (cs : List Char) : (scan cs).1.text ++ (scan cs).2 = cs := by
  have fraction := scanFraction_append (cs.dropWhile Char.isDigit)
  have exponent := Exponent.scan_append (scanFraction (cs.dropWhile Char.isDigit)).2
  simp only [scan, text, List.append_assoc, exponent, fraction, List.takeWhile_append_dropWhile]

/-- A text that begins with a digit or a point begins with a numeral. -/
theorem Numeral.length_scan_lt {c : Char} (cs : List Char) (h : c.isDigit = true ∨ c = '.') :
    (scan (c :: cs)).2.length < (c :: cs).length := by
  have whole := congrArg List.length (scan_append (c :: cs))
  have shown : (scan (c :: cs)).1.text ≠ [] := by
    rcases h with h | rfl
    · simp [scan, text, h]
    · simp [scan, text, scanFraction]
  have := List.length_pos_iff.2 shown
  simp only [List.length_append] at whole
  omega

end LineBasic
