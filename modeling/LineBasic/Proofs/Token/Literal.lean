import LineBasic.Expr.Parser
import LineBasic.Proofs.Token.Reader
import LineBasic.Proofs.Number.Reading
import LineBasic.Proofs.Token.Lexer

/-!
# Numerals among tokens

A numeral among the tokens of a text is the longest literal that the text begins with at its place.
So it has no sign in front of it, one point at most, and digits behind the mark of its exponent. It
is read as a number unless its mantissa is the point alone. What is refused as a constant is then
either such a numeral, or one whose value is rounded to an infinity.

Results:
1. `Cut.drop_width`, `cut_of_scan_eq`, `scan_of_ofText`: where in its text a numeral has been cut.
2. `Numeral.IsLiteral.count_le`, `Numeral.IsLiteral.isExponent`: what literals look like.
3. `Expr.ofNumeral_literal`: how literals are read as constants.
4. `literal_ofText`: all of this about each numeral of a text.
-/

namespace LineBasic

namespace Token

/-! ## 1. Where a token has been cut -/

variable {place : Place} {cs rest : List Char} {t : Token} {before after : List Token}

namespace LiteralLemmas

theorem width_eq (t : Token) : t.width = t.text.toList.length := String.length_toList.symm

theorem drop_width_of_eq (front : List Char) (whole : cs = front ++ rest)
    (wide : t.text.toList.length = front.length) : cs.drop t.width = rest := by
  rw [width_eq, wide, whole, List.drop_left]

end LiteralLemmas

open LiteralLemmas

/-- A token takes up as much of a text as has been cut off it. Only behind a string literal
without its closing quote there is less. -/
theorem Cut.drop_width (cut : Cut place cs t rest) : cs.drop t.width = rest := by
  cases cut with
  | @blank c others rest whole => exact drop_width_of_eq (c :: others) whole (by simp [text])
  | remark => exact drop_width_of_eq cs (List.append_nil _).symm (by simp [text])
  | numeral => exact drop_width_of_eq _ (Numeral.scan_append cs).symm (by simp [text])
  | @word c others rest _ whole =>
    exact drop_width_of_eq (c :: others) whole (by simp [text])
  | @closed literal rest _ whole =>
    exact drop_width_of_eq ('"' :: literal ++ ['"']) (by simp [whole]) (by simp [text])
  | unclosed _ whole =>
    refine List.drop_eq_nil_of_le ?_
    simp [whole, width_eq, text]
  | @symbol c t rest _ whole known =>
    exact drop_width_of_eq [c] whole (by rw [CutLemmas.text_of_symbol known])
  | @unknown c others rest _ whole =>
    exact drop_width_of_eq (c :: others) whole (by simp [text])

/-- A token has been cut off what is left of a text behind the tokens before it. -/
theorem cut_of_scan_eq (shape : scan place cs = before ++ t :: after) :
    ∃ place' rest, Cut place' (cs.drop (totalWidth before)) t rest := by
  induction place, cs using scan_induction generalizing before with
  | nil place =>
    rw [scan] at shape
    exact absurd shape.symm (List.append_ne_nil_of_right_ne_nil _ (List.cons_ne_nil _ _))
  | @cut place cs first rest cut ih =>
    rw [cut.scan_eq] at shape
    cases before with
    | nil =>
      obtain ⟨rfl, _⟩ := List.cons.inj shape
      exact ⟨place, rest, cut⟩
    | cons b before =>
      rw [List.cons_append] at shape
      obtain ⟨rfl, others⟩ := List.cons.inj shape
      obtain ⟨place', rest', cut'⟩ := ih others
      rw [← cut.drop_width, List.drop_drop] at cut'
      exact ⟨place', rest', cut'⟩

/-- What trimming leaves of some tokens ends in one of them, but for the end of a remark. -/
theorem trimLast_cases (tokens : List Token) :
    trimLast tokens = [] ∨ ∃ front last dropped, tokens = front ++ last :: dropped ∧
      trimLast tokens = front ++ [last.trimRemark] := by
  rcases List.eq_nil_or_concat' tokens with rfl | ⟨front, last, rfl⟩
  · exact .inl rfl
  · cases blank : last.isBlank with
    | false => exact .inr ⟨front, last, [], rfl, by simp [trimLast, blank]⟩
    | true =>
      rcases List.eq_nil_or_concat' front with rfl | ⟨front, last', rfl⟩
      · exact .inl (by simp [trimLast, blank])
      · exact .inr ⟨front, last', [last], by simp, by simp [trimLast, blank]⟩

/-- Trimming the end of the tokens leaves numerals where they are. -/
theorem eq_of_trimLast_eq {numeral : String} {tokens : List Token}
    (shape : trimLast tokens = before ++ number numeral :: after) :
    ∃ after', tokens = before ++ number numeral :: after' := by
  rcases trimLast_cases tokens with none | ⟨front, last, dropped, rfl, trimmed⟩
  · rw [none] at shape
    exact absurd shape.symm (List.append_ne_nil_of_right_ne_nil _ (List.cons_ne_nil _ _))
  · rw [trimmed] at shape
    rcases List.eq_nil_or_concat' after with rfl | ⟨others, other, rfl⟩
    · obtain ⟨rfl, same⟩ := List.append_inj' shape rfl
      obtain rfl : last = number numeral := by
        cases last <;> first | exact List.head_eq_of_cons_eq same | cases same
      exact ⟨dropped, rfl⟩
    · rw [← List.cons_append, ← List.append_assoc] at shape
      obtain ⟨rfl, _⟩ := List.append_inj' shape rfl
      exact ⟨others ++ last :: dropped, by simp⟩

/-- The numeral that has been cut off a text. -/
theorem Cut.numeral_eq {numeral : String} (cut : Cut place cs (number numeral) rest) :
    ∃ c others, cs = c :: others ∧ (c.isDigit = true ∨ c = '.') ∧
      numeral.toList = (Numeral.scan cs).1.text := by
  cases cut with
  | numeral _ whole begins => exact ⟨_, _, whole, begins, String.toList_ofList⟩
  | symbol _ _ known =>
    rcases CutLemmas.ofChar?_cases known with ⟨_, same⟩ | ⟨_, same⟩ | ⟨_, same⟩ | ⟨_, _, same⟩ <;>
      cases same

/-- A numeral among the tokens of a text has been taken off what is left there of the text. -/
theorem scan_of_ofText {s numeral : String} (shape : ofText s = before ++ number numeral :: after) :
    ∃ c others trailing, s.toList.drop (totalWidth before) = c :: others ++ trailing ∧
      (∀ d ∈ trailing, Text.isLineEnd d = true) ∧ (c.isDigit = true ∨ c = '.') ∧
      numeral.toList = (Numeral.scan (c :: others)).1.text := by
  obtain ⟨after', tokens⟩ := eq_of_trimLast_eq shape
  obtain ⟨place, rest, cut⟩ := cut_of_scan_eq tokens
  obtain ⟨c, others, left, begins, taken⟩ := cut.numeral_eq
  obtain ⟨trailing, whole, ends⟩ := Text.exists_trailing Text.isLineEnd s.toList
  refine ⟨c, others, trailing, ?_, ends, begins, left ▸ taken⟩
  have inside : totalWidth before ≤ (Text.dropTrailing Text.isLineEnd s.toList).length := by
    refine Nat.le_of_not_lt fun beyond => ?_
    rw [List.drop_eq_nil_of_le (Nat.le_of_lt beyond)] at left
    cases left
  conv_lhs => rw [whole]
  rw [List.drop_append_of_le_length inside, left]

end Token

/-! ## 2. What literals look like -/

namespace Numeral

variable {n : Numeral}

/-- A numeral with a digit or a point in its mantissa. -/
structure IsLiteral (n : Numeral) : Prop where
  wellFormed : n.WellFormed
  begun : n.whole ≠ [] ∨ n.fraction ≠ none

/-- The mantissa is a point and nothing else. -/
def IsLonePoint (n : Numeral) : Prop := n.whole = [] ∧ n.fraction = some []

/-- What a text begins with that begins with a digit or a point. -/
theorem isLiteral_scan {c : Char} (begins : c.isDigit = true ∨ c = '.') (cs : List Char) :
    (scan (c :: cs)).1.IsLiteral := by
  refine ⟨wellFormed_scan _, ?_⟩
  rcases begins with digit | rfl
  · left
    simp [scan, digit]
  · right
    simp [scan, scanFraction]

/-- Behind the mark of an exponent there is no other mark, and no point. -/
theorem not_mark_of_mem_exponent {e : Exponent} (wellFormed : e.WellFormed) {c : Char}
    (mem : c ∈ e.sign.toList ++ e.digits) : ¬ (c = 'e' ∨ c = 'E') ∧ c ≠ '.' := by
  rcases List.mem_append.1 mem with sign | digit
  · rcases wellFormed.sign with shape | shape | shape <;> rw [shape] at sign
    · cases sign
    · obtain rfl := List.mem_singleton.1 sign
      decide
    · obtain rfl := List.mem_singleton.1 sign
      decide
  · have digit := wellFormed.digits c digit
    constructor
    · rintro (rfl | rfl) <;> exact absurd digit (by decide)
    · rintro rfl
      exact absurd digit (by decide)

namespace IsLiteral

/-- A literal without a digit before its exponent is a point alone. -/
theorem digits_eq_nil_iff (literal : n.IsLiteral) : n.digits = [] ↔ n.IsLonePoint := by
  rw [digits, List.append_eq_nil_iff, IsLonePoint]
  refine and_congr_right fun empty => ?_
  have point := literal.begun.resolve_left (not_not.2 empty)
  cases shape : n.fraction with
  | none => exact absurd shape point
  | some digits => simp

theorem count_le (literal : n.IsLiteral) : n.text.count '.' ≤ 1 := by
  obtain ⟨whole, fraction, exponent⟩ := n
  obtain ⟨wellFormed, -⟩ := literal
  have none : '.' ∉ exponent.elim [] Exponent.text := by
    cases exponent with
    | none => exact List.not_mem_nil
    | some e =>
      have isExponent := wellFormed.exponent e rfl
      intro mem
      rcases List.mem_cons.1 mem with mark | mem
      · exact absurd (mark ▸ isExponent.mark) (by decide)
      · exact (not_mark_of_mem_exponent isExponent mem).2 rfl
  rw [text, List.count_append, List.count_eq_zero.2 none]
  exact NumeralLemmas.count_mantissaText_le wellFormed.whole wellFormed.fraction

/-- Behind a mark, there are the digits of an exponent and nothing else. -/
theorem isExponent (literal : n.IsLiteral) {front back : List Char} {mark : Char}
    (split : n.text = front ++ mark :: back) (isMark : mark = 'e' ∨ mark = 'E') :
    Number.isExponent back = true := by
  obtain ⟨whole, fraction, exponent⟩ := n
  obtain ⟨wellFormed, -⟩ := literal
  have inMantissa : mark ∉ whole ++ fraction.elim [] ('.' :: ·) := by
    intro mem
    rcases NumeralLemmas.mem_mantissaText wellFormed.whole wellFormed.fraction mem with digit | rfl
    · rcases isMark with rfl | rfl <;> exact absurd digit (by decide)
    · exact absurd isMark (by decide)
  -- The mark is not in the mantissa and not behind another mark, so it is that of the exponent.
  obtain ⟨between, behind⟩ :
      ∃ between, exponent.elim [] Exponent.text = between ++ mark :: back := by
    rcases List.append_eq_append_iff.1 split with ⟨between, -, behind⟩ | ⟨between, front, behind⟩
    · exact ⟨between, behind⟩
    · cases between with
      | nil => exact ⟨[], behind.symm⟩
      | cons c between =>
        obtain ⟨rfl, _⟩ := List.cons.inj behind
        exact absurd (front ▸ by simp) inMantissa
  cases exponent with
  | none => exact absurd behind.symm (List.append_ne_nil_of_right_ne_nil _ (List.cons_ne_nil _ _))
  | some e =>
    have isExponent := wellFormed.exponent e rfl
    cases between with
    | nil =>
      obtain ⟨_, rfl⟩ := List.cons.inj behind
      exact NumeralLemmas.isExponent_text isExponent
    | cons c between =>
      obtain ⟨_, tail⟩ := List.cons.inj behind
      exact absurd isMark (not_mark_of_mem_exponent isExponent (tail ▸ by simp)).1

end IsLiteral

end Numeral

/-! ## 3. How literals are read -/

namespace Numeral.IsLiteral

variable {n : Numeral} {numeral : String}

theorem read_eq_some (literal : n.IsLiteral) (text : numeral.toList = n.text)
    (other : ¬ n.IsLonePoint) : Number.read numeral = some (n.toNumber false) := by
  have same : numeral = String.ofList n.text := by rw [← text, String.ofList_toList]
  rw [same]
  exact read_text literal.wellFormed (mt literal.digits_eq_nil_iff.1 other)

/-- A point alone is not read, as no number is written without a digit before its exponent. -/
theorem read_eq_none (literal : n.IsLiteral) (text : numeral.toList = n.text)
    (point : n.IsLonePoint) : Number.read numeral = none := by
  have visible : ∀ c ∈ n.text, Text.isSpace c = false :=
    fun c => isSpace_of_mem_text literal.wellFormed
  refine Number.read_eq_none fun sign m written => written.holds ?_
  rw [text, Text.trim_eq_self visible] at written
  obtain ⟨front, scanned⟩ := written.scan_eq
  -- There is no sign, so the numeral that would be written is the literal itself.
  obtain ⟨c, cs, shape, begins⟩ := text_eq_cons literal.wellFormed literal.begun
  rw [shape, scanSign_unsigned begins, ← shape] at front
  have itself := scan_text literal.wellFormed Text.apart_nil
  rw [List.append_nil] at itself
  rw [← (Prod.mk.inj front).2, itself] at scanned
  rw [← (Prod.mk.inj scanned).1]
  exact literal.digits_eq_nil_iff.2 point

end Numeral.IsLiteral

/-- A numeral is read as a finite number just if its value is not too large. -/
theorem Numeral.isFinite_toNumber_iff (n : Numeral) :
    (n.toNumber false).isFinite = true ↔ n.value < Double.overflow := by
  have finite := (n.nearest_toNumber false).finite
  rwa [signedValue, if_neg Bool.false_ne_true, abs_of_nonneg n.value_nonneg] at finite

namespace Expr

variable {n : Numeral} {numeral : String}

/-- A literal is refused as a constant if its mantissa is a point alone, or if its value is rounded
to an infinity. -/
theorem ofNumeral_literal (literal : n.IsLiteral) (text : numeral.toList = n.text) :
    n.IsLonePoint ∧ ofNumeral numeral = .error .unreadableNumeral ∨
      ¬ n.IsLonePoint ∧ Double.overflow ≤ n.value ∧
        ofNumeral numeral = .error (.numeralOverflow numeral) ∨
      ¬ n.IsLonePoint ∧ n.value < Double.overflow ∧
        ofNumeral numeral = .ok (.constant (n.toNumber false)) := by
  rw [ofNumeral]
  by_cases point : n.IsLonePoint
  · rw [literal.read_eq_none text point]
    exact .inl ⟨point, rfl⟩
  · rw [literal.read_eq_some text point]
    have finite := n.isFinite_toNumber_iff
    dsimp only
    split
    next isFinite => exact .inr (.inr ⟨point, finite.1 isFinite, rfl⟩)
    next isInfinite =>
      have above := not_lt.1 fun below => isInfinite (finite.2 below)
      exact .inr (.inl ⟨point, above, rfl⟩)

end Expr

/-! ## 4. The numerals of a text -/

namespace Token

/-- What is known of a numeral that has been cut off the front of a text. -/
structure Literal (cs : List Char) (numeral : String) (n : Numeral) : Prop where
  text : numeral.toList = n.text
  isLiteral : n.IsLiteral
  front : n.text <+: cs
  /-- No longer literal begins the text. -/
  longest : ∀ m : Numeral, m.IsLiteral → m.text <+: cs → m.text.length ≤ n.text.length
  /-- It has no sign in front of it. -/
  unsigned : ∀ c, numeral.toList.head? = some c → c.isDigit = true ∨ c = '.'
  /-- It has one point at most. -/
  points : numeral.toList.count '.' ≤ 1
  /-- Behind a mark, there are the digits of an exponent and nothing else. -/
  exponents : ∀ mantissa mark exponent, numeral.toList = mantissa ++ mark :: exponent →
    (mark = 'e' ∨ mark = 'E') → Number.isExponent exponent = true
  /-- It is read unless its mantissa is a point alone. -/
  unreadable : Number.read numeral = none ↔ n.IsLonePoint
  number : ¬ n.IsLonePoint → ∃ x : Number, Number.read numeral = some x ∧ x.Nearest n.value
  /-- It is refused as a constant in that case, or because its value is rounded to an infinity. -/
  constant : n.IsLonePoint ∧ Expr.ofNumeral numeral = .error .unreadableNumeral ∨
    ¬ n.IsLonePoint ∧ Double.overflow ≤ n.value ∧
      Expr.ofNumeral numeral = .error (.numeralOverflow numeral) ∨
    ¬ n.IsLonePoint ∧ n.value < Double.overflow ∧
      Expr.ofNumeral numeral = .ok (.constant (n.toNumber false))

/-- Line ends do not belong to numerals. -/
theorem isPart_of_isLineEnd {c : Char} (lineEnd : Text.isLineEnd c = true) :
    Numeral.isPart c = false := by
  refine Bool.eq_false_iff.2 fun part => ?_
  have space := Text.isSpace_of_isLineEnd lineEnd
  rw [Numeral.isSpace_of_isPart part] at space
  cases space

/-- Each numeral among the tokens of a text is the longest literal at its place, and it is read as a
constant unless it has no digit before its exponent, or is too large. -/
theorem literal_ofText {s numeral : String} {before after : List Token}
    (shape : ofText s = before ++ number numeral :: after) :
    ∃ n, Literal (s.toList.drop (totalWidth before)) numeral n := by
  obtain ⟨c, others, trailing, left, ends, begins, text⟩ := scan_of_ofText shape
  have literal := Numeral.isLiteral_scan begins others
  have whole := Numeral.scan_append (c :: others)
  refine ⟨(Numeral.scan (c :: others)).1, ?_⟩
  have front : (Numeral.scan (c :: others)).1.text <+: c :: others := ⟨_, whole⟩
  exact {
    text
    isLiteral := literal
    front := left ▸ front.trans (List.prefix_append _ trailing)
    longest := by
      intro m isLiteral begins
      rw [left] at begins
      refine Numeral.length_text_le isLiteral.wellFormed
        (Text.prefix_of_prefix_append begins fun d mem inside => ?_)
      have part := Numeral.isPart_of_mem_text isLiteral.wellFormed inside
      rw [isPart_of_isLineEnd (ends d mem)] at part
      cases part
    unsigned := by
      intro d first
      obtain ⟨d', ds, shape, begins⟩ := Numeral.text_eq_cons literal.wellFormed literal.begun
      rw [text, shape] at first
      exact Option.some.inj first ▸ begins
    points := text ▸ literal.count_le
    exponents := by
      intro mantissa mark exponent split
      exact literal.isExponent (text.symm.trans split)
    unreadable := by
      refine ⟨fun none => ?_, literal.read_eq_none text⟩
      by_contra other
      rw [literal.read_eq_some text other] at none
      cases none
    number := by
      intro other
      exact ⟨_, literal.read_eq_some text other, Numeral.nearest_toNumber false _⟩
    constant := Expr.ofNumeral_literal literal text
  }

/-- A point before an exponent is a numeral, and is refused. -/
theorem literal_ofText_point :
    ofText "PRINT .e5E" = [word "PRINT", blank 1] ++ number ".e5" :: [word "E"] ∧
      ∃ n, Literal ("PRINT .e5E".toList.drop (totalWidth [word "PRINT", blank 1])) ".e5" n := by
  have shape : ofText "PRINT .e5E" = [word "PRINT", blank 1] ++ number ".e5" :: [word "E"] := by
    decide +kernel
  exact ⟨shape, literal_ofText shape⟩

end Token

end LineBasic
