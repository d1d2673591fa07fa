import LineBasic.Number.Numeral
import LineBasic.Proofs.Text

/-!
# Well-formed numerals are read

What is taken off a text as a numeral is well-formed, and a well-formed numeral in front of a text
that does not go on with it is taken off as it stands. The plain texts are those that are written as
a number, perhaps with a sign, and with a digit before the exponent (`Number.Written`). All of them
can be converted, so a text is read just if it is plain.

Results:
1. `Numeral.wellFormed_scan`, `Numeral.scan_text`: what is taken off, and that nothing else is.
2. `Numeral.isPart_of_mem_text`: the characters of numerals.
3. `Number.Written.isPlain`, `Number.written_of_isPlain`: which texts are plain.
4. `Number.read_eq_some_iff`: which texts are read, and as what.
5. `Numeral.read_signed`: the text of a numeral behind a sign is read as its number.
6. `Numeral.read_unsigned`: a text that begins with a digit or a point is read without a sign.
-/

namespace LineBasic

/-- Digits and nothing else. -/
def AllDigits (cs : List Char) : Prop := ∀ c ∈ cs, c.isDigit = true

/-- An exponent as it is written: a mark, perhaps a sign, and at least one digit. -/
structure Exponent.WellFormed (e : Exponent) : Prop where
  mark : e.mark = 'e' ∨ e.mark = 'E'
  sign : e.sign = none ∨ e.sign = some '+' ∨ e.sign = some '-'
  digits : AllDigits e.digits
  written : e.digits ≠ []

/-- A numeral as it is written. It may hold no digit at all. -/
structure Numeral.WellFormed (n : Numeral) : Prop where
  whole : AllDigits n.whole
  fraction : ∀ digits, n.fraction = some digits → AllDigits digits
  exponent : ∀ e, n.exponent = some e → e.WellFormed

/-- A text that is a numeral with a digit before its exponent, perhaps behind a sign. -/
structure Number.Written (cs : List Char) (sign : Option Char) (n : Numeral) : Prop where
  text : cs = sign.toList ++ n.text
  sign : sign = none ∨ sign = some '+' ∨ sign = some '-'
  numeral : n.WellFormed
  holds : n.digits ≠ []

/-- A text that does not go on with a word or a numeral in front of it. -/
def Text.Apart (rest : List Char) : Prop :=
  ∀ c, rest.head? = some c → c.isAlphanum = false ∧ c ≠ '.'

theorem Text.apart_nil : Apart [] := fun _ first => nomatch first

theorem Text.apart_cons {c : Char} (plain : c.isAlphanum = false ∧ c ≠ '.') (cs : List Char) :
    Apart (c :: cs) := by
  intro d first
  obtain rfl := Option.some.inj first
  exact plain

namespace NumeralLemmas

open Text (Apart)

variable {rest : List Char}

theorem isAlphanum_of_isDigit {c : Char} (h : c.isDigit = true) : c.isAlphanum = true := by
  rw [Char.isAlphanum, h, Bool.or_true]

theorem isDigit_of_apart (apart : Apart rest) {c : Char} (first : rest.head? = some c) :
    c.isDigit = false := by
  refine Bool.eq_false_iff.2 fun digit => ?_
  have other := (apart c first).1
  rw [isAlphanum_of_isDigit digit] at other
  cases other

/-! ## 1. The parts of a numeral -/

theorem scanSign_text {digits : List Char} {sign : Option Char}
    (signs : sign = none ∨ sign = some '+' ∨ sign = some '-') (all : AllDigits digits)
    (written : digits ≠ []) :
    Exponent.scanSign (sign.toList ++ (digits ++ rest)) = (sign, digits ++ rest) := by
  rcases signs with rfl | rfl | rfl
  · cases digits with
    | nil => exact absurd rfl written
    | cons d digits =>
      have digit := all d List.mem_cons_self
      have noSign : ¬ (d = '+' ∨ d = '-') := by
        rintro (rfl | rfl) <;> exact absurd digit (by decide)
      simp [Exponent.scanSign, noSign]
  · rfl
  · rfl

theorem scanExponent_text {exponent : Option Exponent}
    (wellFormed : ∀ e, exponent = some e → e.WellFormed) (apart : Apart rest) :
    Exponent.scan (exponent.elim [] Exponent.text ++ rest) = (exponent, rest) := by
  cases exponent with
  | some e =>
    obtain ⟨mark, sign, all, written⟩ := wellFormed e rfl
    have stop : ∀ c, rest.head? = some c → c.isDigit = false := fun _ => isDigit_of_apart apart
    simp only [Option.elim, Exponent.text, List.cons_append, List.append_assoc, Exponent.scan,
      scanSign_text sign all written, Text.takeWhile_append all stop,
      Text.dropWhile_append all stop]
    rw [if_pos ⟨mark, written⟩]
  | none =>
    cases rest with
    | nil => rfl
    | cons c rest =>
      have noMark : ¬ (c = 'e' ∨ c = 'E') := by
        rintro (rfl | rfl) <;> exact absurd (apart _ rfl).1 (by decide)
      simp [Exponent.scan, noMark]

/-- An exponent begins with its mark, which is no digit and no point. -/
theorem head_exponentText {exponent : Option Exponent}
    (wellFormed : ∀ e, exponent = some e → e.WellFormed) (apart : Apart rest) {c : Char}
    (first : (exponent.elim [] Exponent.text ++ rest).head? = some c) :
    c.isDigit = false ∧ c ≠ '.' := by
  cases exponent with
  | some e =>
    obtain rfl : e.mark = c := Option.some.inj first
    rcases (wellFormed e rfl).mark with mark | mark <;> rw [mark] <;> decide
  | none => exact ⟨isDigit_of_apart apart first, (apart c first).2⟩

theorem scanFraction_text {fraction : Option (List Char)}
    (all : ∀ digits, fraction = some digits → AllDigits digits)
    (stop : ∀ c, rest.head? = some c → c.isDigit = false ∧ c ≠ '.') :
    Numeral.scanFraction (fraction.elim [] ('.' :: ·) ++ rest) = (fraction, rest) := by
  have stop' : ∀ c, rest.head? = some c → c.isDigit = false := fun c first => (stop c first).1
  cases fraction with
  | some digits =>
    simp only [Option.elim, List.cons_append, Numeral.scanFraction,
      Text.takeWhile_append (all digits rfl) stop', Text.dropWhile_append (all digits rfl) stop']
  | none =>
    rw [Option.elim_none, List.nil_append, Numeral.scanFraction.eq_def]
    split
    next => exact absurd rfl (stop '.' rfl).2
    next => rfl

theorem head_fractionText {fraction : Option (List Char)}
    (stop : ∀ c, rest.head? = some c → c.isDigit = false ∧ c ≠ '.') {c : Char}
    (first : (fraction.elim [] ('.' :: ·) ++ rest).head? = some c) : c.isDigit = false := by
  cases fraction with
  | some digits =>
    obtain rfl : '.' = c := Option.some.inj first
    decide
  | none => exact (stop c first).1

theorem allDigits_takeWhile (cs : List Char) : AllDigits (cs.takeWhile Char.isDigit) :=
  fun _ => List.mem_takeWhile_imp

theorem sign_scanSign (cs : List Char) :
    (Exponent.scanSign cs).1 = none ∨ (Exponent.scanSign cs).1 = some '+' ∨
      (Exponent.scanSign cs).1 = some '-' := by
  cases cs with
  | nil => exact .inl rfl
  | cons c cs =>
    rw [Exponent.scanSign]
    split
    next isSign => exact .inr (isSign.imp (congrArg some) (congrArg some))
    next => exact .inl rfl

theorem wellFormed_scanExponent {cs : List Char} {e : Exponent}
    (taken : (Exponent.scan cs).1 = some e) : e.WellFormed := by
  cases cs with
  | nil => cases taken
  | cons mark cs =>
    simp only [Exponent.scan] at taken
    split at taken
    next isExponent =>
      obtain rfl := Option.some.inj taken
      exact ⟨isExponent.1, sign_scanSign cs, allDigits_takeWhile _, isExponent.2⟩
    next => cases taken

theorem allDigits_scanFraction {cs digits : List Char}
    (taken : (Numeral.scanFraction cs).1 = some digits) : AllDigits digits := by
  unfold Numeral.scanFraction at taken
  split at taken
  · exact Option.some.inj taken ▸ allDigits_takeWhile _
  · cases taken

/-! ## 2. Plain texts -/

section Mantissa

variable {whole : List Char} {fraction : Option (List Char)}

theorem mem_mantissaText (all : AllDigits whole)
    (all' : ∀ digits, fraction = some digits → AllDigits digits) {c : Char}
    (mem : c ∈ whole ++ fraction.elim [] ('.' :: ·)) : c.isDigit = true ∨ c = '.' := by
  rcases List.mem_append.1 mem with mem | mem
  · exact .inl (all c mem)
  · cases fraction with
    | none => cases mem
    | some digits => exact (List.mem_cons.1 mem).symm.imp_left (all' digits rfl c)

theorem point_notMem {digits : List Char} (all : AllDigits digits) : '.' ∉ digits :=
  fun mem => absurd (all '.' mem) (by decide)

theorem count_mantissaText_le (all : AllDigits whole)
    (all' : ∀ digits, fraction = some digits → AllDigits digits) :
    (whole ++ fraction.elim [] ('.' :: ·)).count '.' ≤ 1 := by
  rw [List.count_append, List.count_eq_zero.2 (point_notMem all)]
  cases fraction with
  | none => exact Nat.zero_le _
  | some digits =>
    rw [Option.elim_some, List.count_cons_self,
      List.count_eq_zero.2 (point_notMem (all' digits rfl))]

theorem isMantissa_text (all : AllDigits whole)
    (all' : ∀ digits, fraction = some digits → AllDigits digits)
    (holds : whole ++ fraction.getD [] ≠ []) :
    Number.isMantissa (whole ++ fraction.elim [] ('.' :: ·)) = true := by
  simp only [Number.isMantissa, Bool.and_eq_true, decide_eq_true_eq, List.all_eq_true,
    List.any_eq_true, Bool.or_eq_true, beq_iff_eq]
  refine ⟨⟨fun c => mem_mantissaText all all', ?_⟩, ?_⟩
  · cases whole with
    | cons d ds => exact ⟨d, List.mem_cons_self, all d List.mem_cons_self⟩
    | nil =>
      match fraction with
      | some (d :: ds) => exact ⟨d, by simp, all' _ rfl d List.mem_cons_self⟩
      | some [] | none => exact absurd rfl holds
  · exact count_mantissaText_le all all'

/-- A mantissa is cut at its point. -/
theorem exists_mantissa {cs : List Char} (mantissa : Number.isMantissa cs = true) :
    ∃ (whole : List Char) (fraction : Option (List Char)),
      cs = whole ++ fraction.elim [] ('.' :: ·) ∧ AllDigits whole ∧
        (∀ digits, fraction = some digits → AllDigits digits) ∧ whole ++ fraction.getD [] ≠ [] := by
  simp only [Number.isMantissa, Bool.and_eq_true, decide_eq_true_eq, List.all_eq_true,
    List.any_eq_true, Bool.or_eq_true, beq_iff_eq] at mantissa
  obtain ⟨⟨parts, d, mem, digit⟩, points⟩ := mantissa
  have split := List.takeWhile_append_dropWhile (p := Char.isDigit) (l := cs)
  have other := List.head?_dropWhile_not Char.isDigit cs
  have all := allDigits_takeWhile cs
  generalize cs.takeWhile Char.isDigit = whole at *
  cases behind : cs.dropWhile Char.isDigit with
  | nil =>
    rw [behind, List.append_nil] at split
    subst split
    exact ⟨whole, none, by simp, all, by simp, by simpa using List.ne_nil_of_mem mem⟩
  | cons c ds =>
    rw [behind] at split
    subst split
    rw [behind, List.head?_cons] at other
    obtain rfl : c = '.' := (parts c (by simp)).resolve_left (by simpa using other)
    rw [List.count_append, List.count_cons_self] at points
    have noPoint : '.' ∉ ds := List.count_eq_zero.1 (by omega)
    have all' : AllDigits ds := by
      intro e inside
      refine (parts e (by simp [inside])).resolve_right ?_
      rintro rfl
      exact noPoint inside
    refine ⟨whole, some ds, rfl, all, fun _ same => Option.some.inj same ▸ all', ?_⟩
    intro empty
    obtain ⟨rfl, rfl⟩ := List.append_eq_nil_iff.1 empty
    obtain rfl := List.mem_singleton.1 mem
    exact absurd digit (by decide)

end Mantissa

theorem isExponent_text {e : Exponent} (wellFormed : e.WellFormed) :
    Number.isExponent (e.sign.toList ++ e.digits) = true := by
  have scanned := @scanSign_text [] _ _ wellFormed.sign wellFormed.digits wellFormed.written
  rw [List.append_nil] at scanned
  simp only [Number.isExponent, scanned, Bool.and_eq_true, List.all_eq_true]
  exact ⟨by simp [wellFormed.written], wellFormed.digits⟩

theorem exists_exponent {mark : Char} {cs : List Char} (isMark : mark = 'e' ∨ mark = 'E')
    (exponent : Number.isExponent cs = true) :
    ∃ e : Exponent, e.WellFormed ∧ e.text = mark :: cs := by
  simp only [Number.isExponent, Bool.and_eq_true, List.all_eq_true] at exponent
  refine ⟨⟨mark, (Exponent.scanSign cs).1, (Exponent.scanSign cs).2⟩,
    ⟨isMark, sign_scanSign cs, exponent.2, by simpa using exponent.1⟩, ?_⟩
  rw [Exponent.text, Exponent.scanSign_append]

end NumeralLemmas

open NumeralLemmas

namespace Numeral

variable {n : Numeral} {rest : List Char}

/-! ## 3. Scanning -/

/-- What is taken off a text is well-formed. -/
theorem wellFormed_scan (cs : List Char) : (scan cs).1.WellFormed :=
  ⟨allDigits_takeWhile cs, fun _ => allDigits_scanFraction, fun _ => wellFormed_scanExponent⟩

/-- A well-formed numeral is scanned as itself. -/
theorem scan_text (wellFormed : n.WellFormed) (apart : Text.Apart rest) :
    scan (n.text ++ rest) = (n, rest) := by
  obtain ⟨whole, fraction, exponent⟩ := n
  have stop : ∀ c, (exponent.elim [] Exponent.text ++ rest).head? = some c →
      c.isDigit = false ∧ c ≠ '.' := fun c => head_exponentText wellFormed.exponent apart
  have stop' : ∀ c, (fraction.elim [] ('.' :: ·) ++
      (exponent.elim [] Exponent.text ++ rest)).head? = some c → c.isDigit = false :=
    fun c => head_fractionText stop
  simp only [scan, text, List.append_assoc, Text.takeWhile_append wellFormed.whole stop',
    Text.dropWhile_append wellFormed.whole stop', scanFraction_text wellFormed.fraction stop,
    scanExponent_text wellFormed.exponent apart]

/-- The characters that numerals are made of. -/
def isPart (c : Char) : Bool :=
  c.isDigit || c == '.' || c == 'e' || c == 'E' || c == '+' || c == '-'

theorem isPart_of_isDigit {c : Char} (digit : c.isDigit = true) : isPart c = true := by
  simp only [isPart, digit, Bool.true_or]

theorem isPart_of_mem_text (wellFormed : n.WellFormed) {c : Char} (mem : c ∈ n.text) :
    isPart c = true := by
  obtain ⟨whole, fraction, exponent⟩ := n
  rw [text, List.mem_append, List.mem_append] at mem
  rcases mem with (mem | mem) | mem
  · exact isPart_of_isDigit (wellFormed.whole c mem)
  · cases fraction with
    | none => cases mem
    | some digits =>
      rcases List.mem_cons.1 mem with rfl | mem
      · rfl
      · exact isPart_of_isDigit (wellFormed.fraction digits rfl c mem)
  · cases exponent with
    | none => cases mem
    | some e =>
      obtain ⟨mark, sign, all, _⟩ := wellFormed.exponent e rfl
      rcases List.mem_cons.1 mem with rfl | mem
      · rcases mark with mark | mark <;> rw [mark] <;> rfl
      · rcases List.mem_append.1 mem with mem | mem
        · rcases sign with sign | sign | sign <;> rw [sign] at mem
          · cases mem
          · obtain rfl := List.mem_singleton.1 mem
            rfl
          · obtain rfl := List.mem_singleton.1 mem
            rfl
        · exact isPart_of_isDigit (all c mem)

/-- A numeral that is taken off a text holds nothing but the characters of numerals. -/
theorem mem_scan {cs : List Char} {c : Char} : c ∈ (scan cs).1.text → isPart c = true :=
  isPart_of_mem_text (wellFormed_scan cs)

theorem isSpace_of_isPart {c : Char} (part : isPart c = true) : Text.isSpace c = false := by
  simp only [isPart, Bool.or_eq_true, beq_iff_eq] at part
  rcases part with ((((digit | rfl) | rfl) | rfl) | rfl) | rfl
  · exact Text.isSpace_of_isAlphanum (isAlphanum_of_isDigit digit)
  all_goals decide

theorem isSpace_of_mem_text (wellFormed : n.WellFormed) {c : Char} (mem : c ∈ n.text) :
    Text.isSpace c = false :=
  isSpace_of_isPart (isPart_of_mem_text wellFormed mem)

/-! ## 4. Reading -/

/-- A numeral with a digit before its exponent has a digit or a point. -/
theorem begun_of_holds (holds : n.digits ≠ []) : n.whole ≠ [] ∨ n.fraction ≠ none := by
  by_contra none
  obtain ⟨whole, fraction⟩ := not_or.1 none
  refine holds ?_
  rw [digits, not_not.1 whole, not_not.1 fraction]
  rfl

/-- A numeral with a digit or a point in its mantissa begins with it. -/
theorem text_eq_cons (wellFormed : n.WellFormed) (begun : n.whole ≠ [] ∨ n.fraction ≠ none) :
    ∃ c cs, n.text = c :: cs ∧ (c.isDigit = true ∨ c = '.') := by
  obtain ⟨whole, fraction, exponent⟩ := n
  cases whole with
  | cons d whole => exact ⟨d, _, rfl, .inl (wellFormed.whole d List.mem_cons_self)⟩
  | nil =>
    cases fraction with
    | some digits => exact ⟨'.', _, rfl, .inr rfl⟩
    | none => exact (begun.elim (· rfl) (· rfl)).elim

theorem scanSign_unsigned {c : Char} {cs : List Char} (h : c.isDigit = true ∨ c = '.') :
    Exponent.scanSign (c :: cs) = (none, c :: cs) := by
  have noSign : ¬ (c = '+' ∨ c = '-') := by
    rintro (rfl | rfl) <;> rcases h with h | h <;> revert h <;> decide
  simp [Exponent.scanSign, noSign]

end Numeral

namespace Number

variable {cs : List Char} {sign : Option Char} {n : Numeral}

/-- A text that is written as a number is taken apart as it is written. -/
theorem Written.scan_eq (written : Written cs sign n) :
    Exponent.scanSign cs = (sign, n.text) ∧ Numeral.scan n.text = (n, []) := by
  obtain ⟨rfl, signs, numeral, holds⟩ := written
  constructor
  · rcases signs with rfl | rfl | rfl
    · obtain ⟨c, cs, shape, first⟩ := Numeral.text_eq_cons numeral (Numeral.begun_of_holds holds)
      rw [shape]
      exact Numeral.scanSign_unsigned first
    · rfl
    · rfl
  · have scanned := Numeral.scan_text numeral Text.apart_nil
    rwa [List.append_nil] at scanned

/-- What is written as a number is converted to it. -/
theorem Written.convert_eq (written : Written cs sign n) :
    convert cs = some (n.toNumber (sign = some '-')) := by
  obtain ⟨front, scanned⟩ := written.scan_eq
  simp [convert, front, scanned, written.holds]

/-- A text that is written as a number is plain: the first mark in it is that of its exponent. -/
theorem Written.isPlain (written : Written cs sign n) : isPlain cs = true := by
  have front := written.scan_eq.1
  obtain ⟨-, -, numeral, holds⟩ := written
  simp only [Number.isPlain, front]
  obtain ⟨whole, fraction, exponent⟩ := n
  have inside : ∀ c ∈ whole ++ fraction.elim [] ('.' :: ·),
      decide (c ≠ 'e' ∧ c ≠ 'E') = true := by
    intro c mem
    refine decide_eq_true ?_
    constructor <;> rintro rfl
    all_goals
      exact (mem_mantissaText numeral.whole numeral.fraction mem).elim (by decide) (by decide)
  have stop : ∀ c, (exponent.elim [] Exponent.text).head? = some c →
      decide (c ≠ 'e' ∧ c ≠ 'E') = false := by
    intro c first
    cases exponent with
    | none => cases first
    | some e =>
      obtain rfl : e.mark = c := Option.some.inj first
      exact decide_eq_false fun other => (numeral.exponent e rfl).mark.elim other.1 other.2
  rw [Numeral.text, Text.takeWhile_append inside stop, Text.dropWhile_append inside stop,
    Bool.and_eq_true]
  refine ⟨isMantissa_text numeral.whole numeral.fraction holds, ?_⟩
  cases exponent with
  | none => rfl
  | some e => exact isExponent_text (numeral.exponent e rfl)

/-- A plain text is written as a number. -/
theorem written_of_isPlain (plain : isPlain cs = true) : ∃ sign n, Written cs sign n := by
  simp only [isPlain, Bool.and_eq_true] at plain
  obtain ⟨mantissa, exponent⟩ := plain
  have signed := Exponent.scanSign_append cs
  have signs := sign_scanSign cs
  generalize Exponent.scanSign cs = split at *
  obtain ⟨sign, body⟩ := split
  have split :=
    List.takeWhile_append_dropWhile (p := fun c => decide (c ≠ 'e' ∧ c ≠ 'E')) (l := body)
  have other := List.head?_dropWhile_not (fun c => decide (c ≠ 'e' ∧ c ≠ 'E')) body
  obtain ⟨whole, fraction, text, allDigits, allDigits', holds⟩ := exists_mantissa mantissa
  rw [text] at split
  cases behind : body.dropWhile fun c => decide (c ≠ 'e' ∧ c ≠ 'E') with
  | nil =>
    rw [behind, List.append_nil] at split
    refine ⟨sign, ⟨whole, fraction, none⟩, ?_, signs, ⟨allDigits, allDigits', by simp⟩, holds⟩
    simp [← signed, ← split, Numeral.text]
  | cons mark cs =>
    rw [behind] at split exponent other
    have isMark : mark = 'e' ∨ mark = 'E' := by
      have other := of_decide_eq_false other
      tauto
    obtain ⟨e, wellFormed, text⟩ := exists_exponent isMark exponent
    refine ⟨sign, ⟨whole, fraction, some e⟩, ?_, signs, ⟨allDigits, allDigits', ?_⟩, holds⟩
    · rw [← signed, ← split, ← text]
      rfl
    · rintro e' same
      exact Option.some.inj same ▸ wellFormed

/-- A text is read as a number if it is written as one, but for the white space around it. -/
theorem read_eq_some_iff {s : String} {x : Number} :
    read s = some x ↔ ∃ sign n, Written (Text.trim s.toList) sign n ∧
      x = n.toNumber (sign = some '-') := by
  simp only [read]
  constructor
  · intro taken
    split at taken
    next plain =>
      obtain ⟨sign, n, written⟩ := written_of_isPlain plain
      rw [written.convert_eq] at taken
      exact ⟨sign, n, written, (Option.some.inj taken).symm⟩
    next => cases taken
  · rintro ⟨sign, n, written, rfl⟩
    rw [if_pos written.isPlain, written.convert_eq]

end Number

namespace Numeral

variable {n : Numeral}

/-- A numeral behind its sign, if it has one. -/
def signed (negative : Bool) (n : Numeral) : List Char := if negative then '-' :: n.text else n.text

/-- The text of a well-formed numeral behind a sign is read as its number with that sign. -/
theorem read_signed (negative : Bool) (wellFormed : n.WellFormed) (holds : n.digits ≠ []) :
    Number.read (String.ofList (n.signed negative)) = some (n.toNumber negative) := by
  have visible : ∀ c ∈ n.signed negative, Text.isSpace c = false := by
    intro c mem
    cases negative with
    | false => exact isSpace_of_mem_text wellFormed mem
    | true =>
      rcases List.mem_cons.1 mem with rfl | mem
      · decide
      · exact isSpace_of_mem_text wellFormed mem
  rw [Number.read_eq_some_iff, String.toList_ofList, Text.trim_eq_self visible]
  refine ⟨if negative then some '-' else none, n, ⟨?_, ?_, wellFormed, holds⟩, ?_⟩
  all_goals cases negative <;> simp [signed]

/-- The text of a well-formed numeral is read as its number. -/
theorem read_text (wellFormed : n.WellFormed) (holds : n.digits ≠ []) :
    Number.read (String.ofList n.text) = some (n.toNumber false) :=
  read_signed false wellFormed holds

/-- A text that begins with a digit or a point is read as a number without a sign. -/
theorem read_unsigned {s : String} {value : Number} {c : Char} {cs : List Char}
    (shape : s.toList = c :: cs) (first : c.isDigit = true ∨ c = '.')
    (read : Number.read s = some value) : ∃ n : Numeral, value = n.toNumber false := by
  have visible : Text.isSpace c = false := by
    rcases first with digit | rfl
    · exact Text.isSpace_of_isAlphanum (isAlphanum_of_isDigit digit)
    · decide
  obtain ⟨sign, n, written, value⟩ := Number.read_eq_some_iff.1 read
  -- The first character stays when the text is trimmed, and it is no sign.
  obtain ⟨cs', kept⟩ := Text.dropTrailing_cons visible cs
  have trimmed : Text.trim (c :: cs) = c :: cs' := by
    rw [Text.trim, List.dropWhile_cons_of_neg (by simp [visible])]
    exact kept
  have front := written.scan_eq.1
  rw [shape, trimmed, scanSign_unsigned first] at front
  obtain rfl := (Prod.mk.inj front).1
  exact ⟨n, value⟩

end Numeral

end LineBasic
