import LineBasic.Proofs.Number.Numeral
import LineBasic.Token.Lexer

/-!
# Numerals in a text

The lexer takes a numeral off a text one character after the other. It goes by two flags and the last
character, and looks ahead behind an `e`. What it takes is what `Numeral.scan` takes part by part:
digits, a point with more digits, an exponent. And that is the longest numeral there is.

Results:
1. `takeNumeral_eq`: character by character and part by part the same is taken.
2. `Numeral.length_text_le`: no numeral that a text begins with is longer.
-/

namespace LineBasic

namespace Token

/-! ## 1. One character after the other -/

namespace TakeNumeralLemmas

variable {point marked : Bool} {last c : Char} {cs : List Char}

theorem goesOn?_of_isDigit (digit : c.isDigit = true) :
    goesOn? point marked last c cs = some marked := by
  have noSign : ¬ (c = '+' ∨ c = '-') := by
    rintro (rfl | rfl) <;> exact absurd digit (by decide)
  rw [goesOn?, if_neg fun both => noSign both.2, if_pos digit]

/-- Behind a digit or a point, a character that is no digit is the point or the mark. -/
theorem goesOn?_of_not_isDigit (before : last.isDigit = true ∨ last = '.')
    (other : c.isDigit = false) :
    goesOn? point marked last c cs =
      if ¬ point ∧ ¬ marked ∧ c = '.' then some marked
      else if ¬ marked ∧ (c = 'e' ∨ c = 'E') ∧ exponentFollows cs then some true
      else none := by
  have noMark : ¬ (last = 'e' ∨ last = 'E') := by
    rintro (rfl | rfl) <;> exact before.elim (by decide) (by decide)
  rw [goesOn?, if_neg fun both => noMark both.1, if_neg (by simp [other])]

/-- The digits of an exponent go on as long as there are any. -/
theorem takeNumeral_exponentDigits (digit : last.isDigit = true) :
    takeNumeral point true last cs =
      (last :: cs.takeWhile Char.isDigit, cs.dropWhile Char.isDigit) := by
  induction cs generalizing point last with
  | nil => rfl
  | cons c cs ih =>
    rw [takeNumeral]
    cases next : c.isDigit with
    | true =>
      simp only [goesOn?_of_isDigit next, ih next]
      rw [List.takeWhile_cons_of_pos next, List.dropWhile_cons_of_pos next]
    | false =>
      rw [goesOn?_of_not_isDigit (.inl digit) next, List.takeWhile_cons_of_neg (by simp [next]),
        List.dropWhile_cons_of_neg (by simp [next])]
      simp

/-- Behind the mark of an exponent its sign is taken, and then its digits. -/
theorem takeNumeral_mark (mark : last = 'e' ∨ last = 'E') (follows : exponentFollows cs = true) :
    takeNumeral point true last cs =
      (last :: ((Exponent.scanSign cs).1.toList ++
        (Exponent.scanSign cs).2.takeWhile Char.isDigit),
        (Exponent.scanSign cs).2.dropWhile Char.isDigit) := by
  cases cs with
  | nil => cases follows
  | cons c cs =>
    rw [takeNumeral]
    rw [exponentFollows] at follows
    rw [Exponent.scanSign]
    split at follows
    next sign =>
      rw [if_pos sign, goesOn?, if_pos ⟨mark, sign⟩]
      cases cs with
      | nil => cases follows
      | cons d cs =>
        have digit : d.isDigit = true := follows
        dsimp only
        rw [takeNumeral, goesOn?_of_isDigit digit, List.takeWhile_cons_of_pos digit,
          List.dropWhile_cons_of_pos digit]
        simp only [takeNumeral_exponentDigits digit]
        rfl
    next noSign =>
      rw [if_neg noSign, List.takeWhile_cons_of_pos follows, List.dropWhile_cons_of_pos follows]
      simp only [goesOn?_of_isDigit follows, takeNumeral_exponentDigits follows]
      rfl

/-- Digits follow the mark of an exponent just if they do behind the sign. -/
theorem exponentFollows_iff :
    exponentFollows cs = true ↔ (Exponent.scanSign cs).2.takeWhile Char.isDigit ≠ [] := by
  have first (cs : List Char) :
      cs.head?.any Char.isDigit = true ↔ cs.takeWhile Char.isDigit ≠ [] := by
    cases cs with
    | nil => simp
    | cons c cs => cases digit : c.isDigit <;> simp [digit]
  cases cs with
  | nil => simp [exponentFollows, Exponent.scanSign]
  | cons c cs =>
    rw [exponentFollows, Exponent.scanSign]
    split
    · exact first cs
    · exact first (c :: cs)

/-- Where no more digits follow, and no point that belongs to the numeral, an exponent is taken. -/
theorem takeNumeral_exponent (before : last.isDigit = true ∨ last = '.')
    (stop : ∀ c, cs.head? = some c → c.isDigit = false)
    (noPoint : (point || last == '.') = true ∨ cs.head? ≠ some '.') :
    takeNumeral point false last cs =
      (last :: (Exponent.scan cs).1.elim [] Exponent.text, (Exponent.scan cs).2) := by
  cases cs with
  | nil => rfl
  | cons c cs =>
    have notPoint : ¬ (¬ (point || last == '.') ∧ ¬ false ∧ c = '.') := by
      rintro ⟨none, -, rfl⟩
      exact noPoint.elim none (· rfl)
    rw [takeNumeral, goesOn?_of_not_isDigit before (stop c rfl), if_neg notPoint]
    by_cases exponent : (c = 'e' ∨ c = 'E') ∧ exponentFollows cs = true
    · rw [if_pos ⟨by decide, exponent⟩]
      simp only [takeNumeral_mark exponent.1 exponent.2, Exponent.scan,
        if_pos (And.intro exponent.1 (exponentFollows_iff.1 exponent.2))]
      rfl
    · rw [exponentFollows_iff] at exponent
      rw [if_neg fun both => exponent ⟨both.2.1, exponentFollows_iff.1 both.2.2⟩]
      simp only [Exponent.scan, if_neg exponent]
      rfl

/-- Behind the point, digits are taken, and then an exponent. -/
theorem takeNumeral_fraction (before : last.isDigit = true ∨ last = '.')
    (pointed : (point || last == '.') = true) :
    takeNumeral point false last cs =
      (last :: (cs.takeWhile Char.isDigit ++
        (Exponent.scan (cs.dropWhile Char.isDigit)).1.elim [] Exponent.text),
        (Exponent.scan (cs.dropWhile Char.isDigit)).2) := by
  induction cs generalizing point last with
  | nil => rfl
  | cons c cs ih =>
    cases next : c.isDigit with
    | true =>
      rw [takeNumeral, goesOn?_of_isDigit next, List.takeWhile_cons_of_pos next,
        List.dropWhile_cons_of_pos next]
      simp only [pointed, ih (.inl next) (Bool.true_or _)]
      rfl
    | false =>
      rw [List.takeWhile_cons_of_neg (by simp [next]), List.dropWhile_cons_of_neg (by simp [next])]
      refine takeNumeral_exponent before (fun d first => ?_) (.inl pointed)
      rwa [← Option.some.inj first]

/-- Before the point, digits are taken, and then a fraction and an exponent. -/
theorem takeNumeral_whole (digit : last.isDigit = true) :
    takeNumeral false false last cs =
      (last :: (cs.takeWhile Char.isDigit ++
        ((Numeral.scanFraction (cs.dropWhile Char.isDigit)).1.elim [] ('.' :: ·) ++
          (Exponent.scan (Numeral.scanFraction (cs.dropWhile Char.isDigit)).2).1.elim []
            Exponent.text)),
        (Exponent.scan (Numeral.scanFraction (cs.dropWhile Char.isDigit)).2).2) := by
  have notPoint : last ≠ '.' := by
    rintro rfl
    exact absurd digit (by decide)
  induction cs generalizing last with
  | nil => rfl
  | cons c cs ih =>
    cases next : c.isDigit with
    | true =>
      have notPoint' : c ≠ '.' := by
        rintro rfl
        exact absurd next (by decide)
      rw [takeNumeral, goesOn?_of_isDigit next, List.takeWhile_cons_of_pos next,
        List.dropWhile_cons_of_pos next]
      simp only [Bool.false_or, beq_eq_false_iff_ne.2 notPoint, ih next notPoint']
      rfl
    | false =>
      rw [List.takeWhile_cons_of_neg (by simp [next]), List.dropWhile_cons_of_neg (by simp [next])]
      by_cases point : c = '.'
      · subst point
        rw [takeNumeral, goesOn?_of_not_isDigit (.inl digit) next, if_pos (by simp [notPoint])]
        simp only [Bool.false_or, beq_eq_false_iff_ne.2 notPoint,
          takeNumeral_fraction (.inr rfl) (rfl : (false || '.' == '.') = true)]
        rfl
      · have stop : ∀ d, (c :: cs).head? = some d → d.isDigit = false ∧ d ≠ '.' :=
          fun d first => Option.some.inj first ▸ ⟨next, point⟩
        have none : Numeral.scanFraction (c :: cs) = (none, c :: cs) := by
          refine @NumeralLemmas.scanFraction_text _ Option.none (fun _ same => ?_) stop
          exact absurd same.symm (Option.some_ne_none _)
        rw [none]
        exact takeNumeral_exponent (.inl digit) (fun d first => (stop d first).1)
          (.inr fun first => (stop '.' first).2 rfl)

end TakeNumeralLemmas

open TakeNumeralLemmas

/-- Character by character the same is taken as part by part. -/
theorem takeNumeral_eq {c : Char} (begins : c.isDigit = true ∨ c = '.') (cs : List Char) :
    takeNumeral false false c cs =
      ((Numeral.scan (c :: cs)).1.text, (Numeral.scan (c :: cs)).2) := by
  rcases begins with digit | rfl
  · rw [takeNumeral_whole digit]
    simp only [Numeral.scan, Numeral.text, List.takeWhile_cons_of_pos digit,
      List.dropWhile_cons_of_pos digit, List.cons_append, List.append_assoc]
  · rw [takeNumeral_fraction (.inr rfl) rfl]
    rfl

end Token

/-! ## 2. The longest numeral -/

namespace LongestLemmas

open NumeralLemmas

theorem length_dropWhile_le (p : Char → Bool) (cs : List Char) :
    (cs.dropWhile p).length ≤ cs.length :=
  (List.dropWhile_suffix p).length_le

theorem length_scanExponent_le (cs : List Char) : (Exponent.scan cs).2.length ≤ cs.length := by
  have whole := congrArg List.length (Exponent.scan_append cs)
  rw [List.length_append] at whole
  omega

theorem length_scanFraction_le (cs : List Char) :
    (Numeral.scanFraction cs).2.length ≤ cs.length := by
  have whole := congrArg List.length (Numeral.scanFraction_append cs)
  rw [List.length_append] at whole
  omega

/-- No more is left than behind the digits, or behind the fraction. -/
theorem length_scan_le (cs : List Char) :
    (Numeral.scan cs).2.length ≤ (Numeral.scanFraction (cs.dropWhile Char.isDigit)).2.length :=
  length_scanExponent_le _

end LongestLemmas

open LongestLemmas NumeralLemmas

namespace Numeral

/-- Of a text that begins with a numeral, at least this numeral is taken. -/
theorem length_scan_text_le {n : Numeral} (wellFormed : n.WellFormed) (more : List Char) :
    (scan (n.text ++ more)).2.length ≤ more.length := by
  obtain ⟨whole, fraction, exponent⟩ := n
  have drop {digits : List Char} (all : AllDigits digits) :
      ((digits ++ more).dropWhile Char.isDigit).length ≤ more.length := by
    rw [List.dropWhile_append_of_pos all]
    exact length_dropWhile_le _ _
  cases exponent with
  | none =>
    refine (length_scan_le _).trans ?_
    cases fraction with
    | none =>
      simp only [text, Option.elim_none, List.append_nil]
      exact (length_scanFraction_le _).trans (drop wellFormed.whole)
    | some digits =>
      have stop : ∀ c, ('.' :: (digits ++ more)).head? = some c → c.isDigit = false :=
        fun c first => Option.some.inj first ▸ (by decide)
      simp only [text, Option.elim_some, Option.elim_none, List.append_nil, List.append_assoc,
        List.cons_append, Text.dropWhile_append wellFormed.whole stop]
      exact drop (wellFormed.fraction digits rfl)
  | some e =>
    -- The mark of the exponent ends the digits and the fraction, whatever follows.
    obtain ⟨mark, sign, all, written⟩ := wellFormed.exponent e rfl
    have stop : ∀ c, (e.text ++ more).head? = some c → c.isDigit = false ∧ c ≠ '.' := by
      intro c first
      obtain rfl : e.mark = c := Option.some.inj first
      rcases mark with mark | mark <;> rw [mark] <;> decide
    have exponent : (Exponent.scan (e.text ++ more)).2.length ≤ more.length := by
      have digits : (e.digits ++ more).takeWhile Char.isDigit ≠ [] := by
        rw [List.takeWhile_append_of_pos all]
        exact List.append_ne_nil_of_left_ne_nil written _
      simp only [Exponent.text, List.cons_append, List.append_assoc, Exponent.scan,
        scanSign_text sign all written, if_pos (And.intro mark digits)]
      exact drop all
    simp only [scan, text, Option.elim_some, List.append_assoc,
      Text.dropWhile_append wellFormed.whole fun c => head_fractionText stop,
      scanFraction_text wellFormed.fraction stop]
    exact exponent

/-- No numeral that a text begins with is longer than the one that is taken off it. -/
theorem length_text_le {n : Numeral} {cs : List Char} (wellFormed : n.WellFormed)
    (front : n.text <+: cs) : n.text.length ≤ (scan cs).1.text.length := by
  obtain ⟨more, rfl⟩ := front
  have whole := congrArg List.length (scan_append (n.text ++ more))
  have least := length_scan_text_le wellFormed more
  rw [List.length_append, List.length_append] at whole
  omega

end Numeral

end LineBasic
