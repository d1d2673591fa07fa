import LineBasic.Command
import LineBasic.Proofs.Line.Split
import LineBasic.Proofs.Statement.Language

/-!
# How a listing is asked for

Behind `LIST` stand at most two numbers and a minus sign. `Selection` says which lines they mean,
and `Selection.AskedBy` how a text may ask for them, which is said of its characters: `LIST` in any
case, and any blanks around the words, but that a number does not follow `LIST` at once. That such a
text is cut into these words, and that no minus sign is taken for a part of the number in front of
it, is shown.

Results:
1. `ofWord?_congr`: the case of a verb has no bearing on what it asks for.
2. `Spaced.wordsAt_eq`: the words of a range are cut apart.
3. `holds_iff`, `range_of_written`: the lines in a range, and how it is read.
4. `ofText_of_asked`, `isDirect_of_asked`: a text that asks for some lines is read so, and is no
   line with a number.
-/

namespace LineBasic

/-! ## 1. Verbs and numbers in front -/

/-- The case of a word has no bearing on what it asks for. -/
theorem Command.Verb.ofWord?_congr {a b : String} (same : Text.sameWord a b = true) :
    Command.Verb.ofWord? a = Command.Verb.ofWord? b := by
  simp only [ofWord?, Text.sameWord_congr same]

/-- A text begins with a numeral if a part in front of it does. -/
theorem Line.BeginsNumeral.of_prefix {xs ys : List Char} (begins : Line.BeginsNumeral xs)
    (part : xs <+: ys) : Line.BeginsNumeral ys := by
  obtain ⟨c, first, numeral⟩ := begins
  obtain ⟨more, rfl⟩ := part
  obtain ⟨others, visible⟩ := List.head?_eq_some_iff.1 first
  exact ⟨c, by rw [List.dropWhile_append, visible]; rfl, numeral⟩

/-! ## 2. Words with blanks around them -/

/-- A text holds some words, and nothing but blanks in front of them, between them and behind
them. -/
inductive Spaced : List Token → List Char → Prop
  | nil : Spaced [] []
  | blank {words : List Token} {c : Char} {cs : List Char} :
      Text.isBlank c = true → Spaced words cs → Spaced words (c :: cs)
  | word (t : Token) {words : List Token} {cs : List Char} :
      Spaced words cs → Spaced (t :: words) (t.text.toList ++ cs)

namespace Token

/-- The words that ranges are made of: the minus sign, and line numbers. -/
def InRange (t : Token) : Prop := t = .operator .minus ∨ ∃ n, t.Numbers n

variable {t : Token} {words : List Token} {place : Place} {cs rest : List Char}

theorem InRange.trimRemark (inRange : t.InRange) : t.trimRemark = t := by
  obtain rfl | ⟨n, digits, rfl, _⟩ := inRange <;> rfl

theorem wordsAt_blanks (all : ∀ c ∈ cs, Text.isBlank c = true) :
    wordsAt place (cs ++ rest) = wordsAt place rest := by
  induction cs with
  | nil => rfl
  | cons c cs ih =>
    obtain ⟨first, others⟩ := List.forall_mem_cons.1 all
    rw [List.cons_append, wordsAt_blank first, ih others]

theorem InRange.wordsAt_eq (inRange : t.InRange) (apart : t.isNumber = true → Text.Apart rest) :
    wordsAt .inside (t.text.toList ++ rest) = t :: wordsAt .inside rest := by
  obtain rfl | ⟨n, numbers⟩ := inRange
  · exact wordsAt_symbol (c := '-') (by decide) (by decide)
  · obtain ⟨digits, rfl, full, all, _⟩ := numbers
    have cut := wordsAt_digits all (mt String.toList_eq_nil_iff.1 full)
      (show Place.inside ≠ .remark by decide) (apart rfl)
    rwa [String.ofList_toList] at cut

/-- No character of a range ends a line. -/
theorem InRange.isLineEnd_eq {c : Char} (inRange : t.InRange) (mem : c ∈ t.text.toList) :
    Text.isLineEnd c = false := by
  obtain rfl | ⟨n, digits, rfl, _, all, _⟩ := inRange
  · obtain rfl := List.mem_singleton.1 mem
    rfl
  · exact Text.isLineEnd_of_isAlphanum (NumeralLemmas.isAlphanum_of_isDigit (all c mem))

end Token

variable {words : List Token} {cs : List Char}

/-- A range that begins with no digit, or with no number, goes on with no word in front of it. -/
theorem Spaced.apart (spaced : Spaced words cs) (inRange : ∀ t ∈ words, t.InRange)
    (other : (∀ t, words.head? = some t → t.isNumber = false) ∨
      ∀ c, cs.head? = some c → c.isDigit = false) : Text.Apart cs := by
  cases spaced with
  | nil => exact Text.apart_nil
  | blank blank =>
    rw [Text.isBlank, Bool.or_eq_true, beq_iff_eq, beq_iff_eq] at blank
    refine Text.apart_cons ?_ _
    rcases blank with rfl | rfl <;> decide
  | @word t words cs spaced =>
    obtain rfl | ⟨n, digits, rfl, full, all, _⟩ := inRange t List.mem_cons_self
    · exact Text.apart_cons (c := '-') (by decide) _
    · rcases other with other | other
      · cases other _ rfl
      · obtain ⟨d, ds, shape⟩ := List.exists_cons_of_ne_nil (mt String.toList_eq_nil_iff.1 full)
        have digit := all d (shape ▸ List.mem_cons_self)
        have first : ((Token.number digits).text.toList ++ cs).head? = some d := by
          rw [Token.text, shape, List.cons_append, List.head?_cons]
        rw [other d first] at digit
        cases digit

/-- The words of a range are cut apart, if there is a minus sign behind each number. -/
theorem Spaced.wordsAt_eq (spaced : Spaced words cs) (inRange : ∀ t ∈ words, t.InRange)
    (separate : words.IsChain fun t u => t.isNumber = true → u.isNumber = false) :
    Token.wordsAt .inside cs = words := by
  induction spaced with
  | nil => exact Token.LexerLemmas.wordsAt_nil
  | blank blank _ ih => rw [Token.wordsAt_blank blank, ih inRange separate]
  | word t spaced ih =>
    obtain ⟨first, others⟩ := List.forall_mem_cons.1 inRange
    obtain ⟨next, behind⟩ := List.isChain_cons.1 separate
    -- No blank has to follow a number: a minus sign cannot go on with it.
    have apart (number : t.isNumber = true) : Text.Apart _ :=
      spaced.apart others (.inl fun u head => next u head number)
    rw [first.wordsAt_eq apart, ih others behind]

theorem Spaced.isLineEnd_eq {c : Char} (spaced : Spaced words cs)
    (inRange : ∀ t ∈ words, t.InRange) (mem : c ∈ cs) : Text.isLineEnd c = false := by
  induction spaced with
  | nil => cases mem
  | blank blank _ ih =>
    rcases List.mem_cons.1 mem with rfl | mem
    · exact Text.isLineEnd_of_isBlank blank
    · exact ih inRange mem
  | word t _ ih =>
    obtain ⟨first, others⟩ := List.forall_mem_cons.1 inRange
    rcases List.mem_append.1 mem with mem | mem
    · exact first.isLineEnd_eq mem
    · exact ih others mem

/-! ## 3. Ranges of lines -/

/-- The lines that a listing is asked for. -/
inductive Selection
  /-- `LIST`: all lines. -/
  | all
  /-- `LIST a`: the line of a number. -/
  | one (n : LineNumber)
  /-- `LIST a-`: the lines from a number on. -/
  | onward (first : LineNumber)
  /-- `LIST -b`: the lines up to a number. -/
  | upTo (last : LineNumber)
  /-- `LIST a-b`: the lines from one number to another. -/
  | between (first last : LineNumber)

namespace Selection

/-- Whether the line of a number is asked for. -/
def Holds (n : LineNumber) : Selection → Prop
  | all => True
  | one m => n = m
  | onward first => first ≤ n
  | upTo last => n ≤ last
  | between first last => first ≤ n ∧ n ≤ last

/-- The words behind `LIST` that say which lines are asked for. -/
inductive Written : Selection → List Token → Prop
  | all : Written all []
  | one {t : Token} {n : LineNumber} : t.Numbers n → Written (one n) [t]
  | onward {t : Token} {first : LineNumber} :
      t.Numbers first → Written (onward first) [t, .operator .minus]
  | upTo {t : Token} {last : LineNumber} :
      t.Numbers last → Written (upTo last) [.operator .minus, t]
  | between {t u : Token} {first last : LineNumber} :
      t.Numbers first → u.Numbers last → Written (between first last) [t, .operator .minus, u]

/-- A text asks for some lines: it says `LIST`, in any case, and then which lines. There may be
blanks around all of the words, and there has to be one between `LIST` and a number behind it. -/
inductive AskedBy (selection : Selection) (typed : String) : Prop
  | intro {front behind : List Char} {verb : String} {words : List Token}
      (whole : typed.toList = front ++ (verb.toList ++ behind))
      (blanks : ∀ c ∈ front, Text.isBlank c = true)
      (list : Text.sameWord verb "LIST" = true)
      (written : selection.Written words)
      (spaced : Spaced words behind)
      (apart : ∀ c, behind.head? = some c → c.isDigit = false)

/-- The range of numbers that a selection is carried out as. -/
def bounds : Selection → LineNumber × LineNumber
  | all => (1, LineNumber.max)
  | one n => (n, n)
  | onward first => (first, LineNumber.max)
  | upTo last => (1, last)
  | between first last => (first, last)

variable {selection : Selection}

/-- Among the numbers that lines can have, the range holds those that are asked for. -/
theorem holds_iff {n : LineNumber} (positive : 1 ≤ n) (fits : n ≤ LineNumber.max) :
    selection.Holds n ↔ selection.bounds.1 ≤ n ∧ n ≤ selection.bounds.2 := by
  cases selection with
  | all => exact iff_of_true trivial ⟨positive, fits⟩
  | one m => exact eq_comm.trans le_antisymm_iff
  | onward first => exact (and_iff_left fits).symm
  | upTo last => exact (and_iff_right positive).symm
  | between first last => exact Iff.rfl

/-- The words of a selection are those of a range, with a minus sign behind a number. -/
theorem Written.shape (written : selection.Written words) : (∀ t ∈ words, t.InRange) ∧
    words.IsChain fun t u => t.isNumber = true → u.isNumber = false := by
  have minus : (Token.operator .minus).InRange := .inl rfl
  cases written with
  | all => simp
  | one numbers => exact ⟨by simpa using .inr ⟨_, numbers⟩, by simp⟩
  | onward numbers => exact ⟨by simpa using ⟨.inr ⟨_, numbers⟩, minus⟩, by simp [Token.isNumber]⟩
  | upTo numbers => exact ⟨by simpa using ⟨minus, .inr ⟨_, numbers⟩⟩, by simp [Token.isNumber]⟩
  | between numbers numbers' =>
    exact ⟨by simpa using ⟨.inr ⟨_, numbers⟩, minus, .inr ⟨_, numbers'⟩⟩, by simp [Token.isNumber]⟩

theorem rangeEnd_of_numbers {t : Token} {n : LineNumber} (numbers : t.Numbers n) :
    Command.rangeEnd [t] = .ok (n, []) := by
  rw [Command.rangeEnd, Token.lineNumber_eq_ok_iff.2 numbers]
  rfl

/-- A range that begins with a number goes on from that number. -/
theorem range_of_numbers {t : Token} {n : LineNumber} (numbers : t.Numbers n) (rest : List Token) :
    Command.range (t :: rest) =
      match rest with
      | .operator .minus :: rest =>
        Command.rangeEnd rest >>= fun found => Command.complete (.list n found.1) found.2
      | _ => Command.complete (.list n n) rest := by
  have read := Token.lineNumber_eq_ok_iff.2 numbers
  obtain ⟨digits, rfl, _⟩ := numbers
  simp only [Command.range, read]
  rfl

/-- The words of a selection are read as its range. -/
theorem range_of_written (written : selection.Written words) :
    Command.range words = .ok (.list selection.bounds.1 selection.bounds.2) := by
  cases written with
  | all => rfl
  | one numbers => rw [range_of_numbers numbers]; rfl
  | onward numbers => rw [range_of_numbers numbers]; rfl
  | upTo numbers =>
    change (Command.rangeEnd [_] >>= fun found => Command.complete (.list 1 found.1) found.2) = _
    rw [rangeEnd_of_numbers numbers]
    rfl
  | between numbers numbers' =>
    simp only [range_of_numbers numbers, rangeEnd_of_numbers numbers']
    rfl

/-! ## 4. Texts -/

variable {typed : String}

/-- In any case `LIST` is a name. -/
theorem isName_of_list {verb : String} (list : Text.sameWord verb "LIST" = true) : IsName verb :=
  isName_of_sameWord list (by decide) (by decide)

/-- The words of a text that asks for some lines. -/
theorem solid_of_asked (asked : selection.AskedBy typed) :
    ∃ verb words, Text.sameWord verb "LIST" = true ∧ selection.Written words ∧
      Token.solid (Token.ofText typed) = .word verb :: words := by
  cases asked with
  | @intro front behind verb words whole blanks list written spaced apart =>
    have isName := isName_of_list list
    obtain ⟨inRange, separate⟩ := written.shape
    have place : Token.placeAfter .opening (.word verb) = .inside := by
      rw [Token.placeAfter, Text.sameWord_congr list "REM"]
      decide
    have noEnd : ∀ c ∈ typed.toList, Text.isLineEnd c = false := by
      intro c mem
      rw [whole, List.mem_append, List.mem_append] at mem
      rcases mem with inFront | inVerb | inBehind
      · exact Text.isLineEnd_of_isBlank (blanks c inFront)
      · exact Text.isLineEnd_of_isAlphanum (isName.isAlphanum c inVerb)
      · exact spaced.isLineEnd_eq inRange inBehind
    have kept : Text.dropTrailing Text.isLineEnd typed.toList = typed.toList :=
      Text.dropTrailing_eq_self_iff.2 fun c last => noEnd c (List.mem_of_getLast? last)
    have plain : words.map Token.trimRemark = words :=
      (List.map_congr_left fun t mem => (inRange t mem).trimRemark).trans (List.map_id _)
    refine ⟨verb, words, list, written, ?_⟩
    rw [Token.solid_ofText, kept, whole, Token.wordsAt_blanks blanks,
      Token.wordsAt_name isName (by decide) (spaced.apart inRange (.inr apart)),
      place, spaced.wordsAt_eq inRange separate, List.map_cons, plain]
    rfl

/-- A text that asks for some lines is read as a command that lists them. -/
theorem ofText_of_asked (asked : selection.AskedBy typed) :
    Command.ofText typed = .ok (.list selection.bounds.1 selection.bounds.2) := by
  obtain ⟨verb, words, list, written, solid⟩ := solid_of_asked asked
  have asks : Command.Verb.ofWord? verb = some .list := by
    rw [Command.Verb.ofWord?_congr list]
    decide
  rw [Command.ofText, solid]
  simp only [asks, Command.readAfter, range_of_written written]

/-- It has no number in front. -/
theorem isDirect_of_asked (asked : selection.AskedBy typed)
    (short : (Text.trimEnd typed.toList).length ≤ Line.maxLength) :
    ∃ line, Line.ofText typed = .ok line ∧ line.isDirect = true := by
  refine ⟨_, Line.ofText_of_direct short fun begins => ?_, rfl⟩
  cases asked with
  | @intro front behind verb words whole blanks list =>
    obtain ⟨c, cs, shape, alpha, _⟩ := isName_of_list list
    have visible : (typed.toList.dropWhile Text.isBlank).head? = some c := by
      rw [whole, shape, List.cons_append, Text.dropWhile_append blanks, List.head?_cons]
      exact fun d first => Option.some.inj first ▸ Token.CutLemmas.visible_of_isAlpha alpha
    -- The line is trimmed at its end, which may be in the middle of the blanks behind `LIST`.
    obtain ⟨d, first, numeral⟩ := begins.of_prefix Text.isPrefix_dropTrailing
    rw [visible] at first
    obtain rfl := Option.some.inj first
    exact Token.CutLemmas.notNumeral_of_isAlpha alpha numeral

end Selection

end LineBasic
