import LineBasic.Proofs.Number.Rounded

/-!
# Reading a number

White space around a text is skipped. What is left is read as a number just if it is written as one:
perhaps a sign, then digits with at most one point among them and at least one digit, then perhaps
an exponent. It is read as the double that its exact value is rounded to; the double has a sign if
the text begins with a minus, also if it is zero.

So the words for infinities and for what is no number are never read, though they could be converted,
and all that is let through to be converted is a number then.

Results:
1. `Number.Written.isPart_of_mem`, `Number.Written.not_two_signs`: what is not read.
2. `Number.reading`: which texts are read, and as what.
-/

namespace LineBasic

open Double

/-- What is made of a text by reading it as a number. -/
structure Number.Reading (s : String) : Prop where
  /-- It is read just if it is written as a number. -/
  accepted : (∃ x, read s = some x) ↔ ∃ sign n, Written (Text.trim s.toList) sign n
  /-- What is let through can be converted. -/
  converted : isPlain (Text.trim s.toList) = true → ∃ x, convert (Text.trim s.toList) = some x
  /-- It is read as the one double with its sign that its value is rounded to. -/
  value : ∀ sign n, Written (Text.trim s.toList) sign n → ∀ x, read s = some x ↔
    isNegative x = decide (sign = some '-') ∧ x.Nearest (n.signedValue (sign = some '-'))
  /-- Only digits, points, marks of exponents and signs are read. -/
  characters : ∀ c ∈ Text.trim s.toList, Numeral.isPart c = false → read s = none
  /-- No second sign is read behind the first. -/
  signs : ∀ c d cs, Text.trim s.toList = c :: d :: cs → (c = '+' ∨ c = '-') →
    (d = '+' ∨ d = '-') → read s = none

namespace Number

variable {cs : List Char} {sign : Option Char} {n : Numeral}

/-- What is not written as a number is not read. -/
theorem read_eq_none {s : String} (other : ∀ sign n, ¬ Written (Text.trim s.toList) sign n) :
    read s = none := by
  refine Option.eq_none_iff_forall_ne_some.2 fun x taken => ?_
  obtain ⟨sign, n, written, _⟩ := read_eq_some_iff.1 taken
  exact other sign n written

theorem Written.isPart_of_mem (written : Written cs sign n) {c : Char} (mem : c ∈ cs) :
    Numeral.isPart c = true := by
  obtain ⟨rfl, signs, numeral, _⟩ := written
  rcases List.mem_append.1 mem with mem | mem
  · rcases signs with rfl | rfl | rfl
    · cases mem
    · obtain rfl := List.mem_singleton.1 mem
      rfl
    · obtain rfl := List.mem_singleton.1 mem
      rfl
  · exact Numeral.isPart_of_mem_text numeral mem

/-- Behind its sign, a number begins with a digit or a point. -/
theorem Written.not_two_signs {c d : Char} (written : Written (c :: d :: cs) sign n)
    (first : c = '+' ∨ c = '-') (second : d = '+' ∨ d = '-') : False := by
  obtain ⟨front, -⟩ := written.scan_eq
  rw [Exponent.scanSign, if_pos first] at front
  obtain ⟨e, es, shape, begins⟩ :=
    Numeral.text_eq_cons written.numeral (Numeral.begun_of_holds written.holds)
  rw [← (Prod.mk.inj front).2] at shape
  obtain ⟨rfl, _⟩ := List.cons.inj shape
  rcases second with rfl | rfl <;> rcases begins with digit | point
  · exact absurd digit (by decide)
  · exact absurd point (by decide)
  · exact absurd digit (by decide)
  · exact absurd point (by decide)

/-- A text is read as a number just if it is written as one, and then as the double that its value
is rounded to. -/
theorem reading (s : String) : Reading s where
  accepted := by
    constructor
    · rintro ⟨x, taken⟩
      obtain ⟨sign, n, written, _⟩ := read_eq_some_iff.1 taken
      exact ⟨sign, n, written⟩
    · rintro ⟨sign, n, written⟩
      exact ⟨_, read_eq_some_iff.2 ⟨sign, n, written, rfl⟩⟩
  converted := by
    intro plain
    obtain ⟨sign, n, written⟩ := written_of_isPlain plain
    exact ⟨_, written.convert_eq⟩
  value := by
    intro sign n written x
    have taken := read_eq_some_iff.2 ⟨sign, n, written, rfl⟩
    have nearest' := n.nearest_toNumber (sign = some '-')
    have negative' := n.isNegative_toNumber (sign = some '-')
    rw [taken, Option.some.injEq]
    constructor
    · rintro rfl
      exact ⟨negative', nearest'⟩
    · rintro ⟨negative, nearest⟩
      exact nearest'.unique nearest (negative'.trans negative.symm)
  characters := by
    intro c mem strange
    refine read_eq_none fun sign n written => ?_
    rw [written.isPart_of_mem mem] at strange
    cases strange
  signs := by
    intro c d cs shape first second
    refine read_eq_none fun sign n written => ?_
    rw [shape] at written
    exact written.not_two_signs first second

example : ["7", "+1.", "-.5E+3", " 1e-9\t"].all (fun s => (read s).isSome) = true := by
  decide +kernel

example : ["", ".", "inf", "NaN", "0x10", "1 2", "+-1", "1e", "1e5e5", "1.2.3"].all
    (fun s => (read s).isNone) = true := by
  decide +kernel

example : ["inf", "-Infinity", "NaN"].all (fun s => (convert s.toList).isSome) = true := by
  decide +kernel

end Number

end LineBasic
