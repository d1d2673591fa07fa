import LineBasic.Proofs.Line
import LineBasic.Proofs.Token.Faithful
import LineBasic.Proofs.Token.Literal

/-!
# Where a line is split up

The number of a line is taken off when all of its text has been cut into tokens. What is left are
the tokens of the text behind the number, as if that text had been cut by itself: a number of digits
leaves the lexer at the opening of a statement, and blanks do not move it.

Results:
1. `dropWhile_scan`, `scan_eq_nil_iff`: blanks in front of a text, and texts without tokens.
2. `lineNumber_of_digits`: how a numeral is read as a line number.
3. `ofText_of_front`, `ofText_of_direct`: what a text with a numeral in front is split up into, and a
   text without one.
4. `split_ofText`: what every text is split up into, and why texts are refused.
-/

namespace LineBasic

/-- There is no white space at the end of a text. -/
def Text.Clean (cs : List Char) : Prop := ∀ d, cs.getLast? = some d → isSpace d = false

/-- The end of a text with no white space at its end has none either. -/
theorem Text.Clean.of_suffix {xs ys : List Char} (clean : Clean xs) (suffix : ys <:+ xs) :
    Clean ys := by
  obtain ⟨front, rfl⟩ := suffix
  intro d last
  have full : ys ≠ [] := by
    rintro rfl
    cases last
  exact clean d (by rw [List.getLast?_append_of_ne_nil _ full, last])

theorem Text.clean_trimEnd (cs : List Char) : Clean (trimEnd cs) := fun _ => last_dropTrailing

namespace Token

/-! ## 1. Blanks in front of a text -/

variable {place : Place} {cs : List Char}

theorem scan_eq_nil_iff : scan place cs = [] ↔ cs = [] := by
  cases cs with
  | nil => simp [scan]
  | cons c cs =>
    rw [(cut_takeFirst place c cs).scan_eq]
    exact iff_of_false (List.cons_ne_nil _ _) (List.cons_ne_nil _ _)

/-- The first token of a text has been cut off it. -/
theorem exists_cut {t : Token} {behind : List Token} (tokens : scan place cs = t :: behind) :
    ∃ left, Cut place cs t left := by
  cases cs with
  | nil => simp [scan] at tokens
  | cons c cs =>
    have cut := cut_takeFirst place c cs
    rw [cut.scan_eq] at tokens
    rw [(List.cons.inj tokens).1] at cut
    exact ⟨_, cut⟩

/-- Where no blank comes first, the first token is no blank. -/
theorem dropWhile_scan_of_stops (stop : Stops Text.isBlank cs) :
    (scan place cs).dropWhile isBlank = scan place cs := by
  cases cs with
  | nil => simp [scan]
  | cons c cs =>
    have cut := cut_takeFirst place c cs
    have solid : ¬ (takeFirst place c cs).1.isBlank = true := by
      rw [cut.isBlank_eq, stop c rfl]
      exact Bool.false_ne_true
    rw [cut.scan_eq, List.dropWhile_cons_of_neg solid]

/-- All blanks in front of a text are one token, behind which the place is the same. -/
theorem scan_of_isBlank (place : Place) {c : Char} (blank : Text.isBlank c = true) (cs : List Char) :
    ∃ width, scan place (c :: cs) = .blank width :: scan place (cs.dropWhile Text.isBlank) := by
  rw [scan, takeFirst, if_pos blank]
  exact ⟨_, rfl⟩

/-- Without the blanks in front of it, a text has the same tokens but for the blank that comes
first. -/
theorem dropWhile_scan (place : Place) (cs : List Char) :
    (scan place cs).dropWhile isBlank = scan place (cs.dropWhile Text.isBlank) := by
  cases cs with
  | nil => simp [scan]
  | cons c cs =>
    cases blank : Text.isBlank c with
    | true =>
      obtain ⟨width, tokens⟩ := scan_of_isBlank place blank cs
      rw [tokens, List.dropWhile_cons_of_pos rfl, List.dropWhile_cons_of_pos blank]
      exact dropWhile_scan_of_stops (CutLemmas.stops_dropWhile _ _)
    | false =>
      have stop : Stops Text.isBlank (c :: cs) := fun d first => Option.some.inj first ▸ blank
      rw [dropWhile_scan_of_stops stop, List.dropWhile_cons_of_neg (by simp [blank])]

theorem ofText_ofList (clean : Text.Clean cs) :
    ofText (String.ofList cs) = scan .opening cs := by
  rw [ofText_eq_scan (by rwa [String.toList_ofList]), String.toList_ofList]

/-! ## 2. Numerals as line numbers -/

variable {numeral : String}

/-- The number that digits stand for. -/
abbrev valueOf (digits : String) : Nat := Nat.ofDigitChars 10 digits.toList 0

theorem lineNumber_of_not_digits (other : ¬ AllDigits numeral.toList) :
    (number numeral).lineNumber = .error .invalidLineNumber := by
  rw [lineNumber, if_neg (mt List.all_eq_true.1 other)]

theorem digits_of_lineNumber {n : LineNumber} (read : (number numeral).lineNumber = .ok n) :
    AllDigits numeral.toList := by
  by_contra other
  rw [lineNumber_of_not_digits other] at read
  cases read

theorem lineNumber_of_digits (digits : AllDigits numeral.toList) (full : numeral ≠ "") :
    (number numeral).lineNumber =
      if LineNumber.max < valueOf numeral then .error .lineNumberOverflow
      else if valueOf numeral = 0 then .error .invalidLineNumber
      else .ok (valueOf numeral) := by
  rw [lineNumber, if_pos (List.all_eq_true.2 digits)]
  simp only [full, false_or]

end Token

open Token

namespace Line

variable {s numeral : String} {text rest : List Char} {result : Except Error Line}

/-! ## 3. What stands in front of a statement -/

/-- A text begins with a numeral, perhaps behind blanks. The rest is what follows the numeral and the
blanks behind it. -/
structure Front (text : List Char) (numeral : String) (rest : List Char) : Prop where
  /-- The numeral is the first token of the text that is no blank. -/
  first : ∃ blanks behind, Token.ofText (String.ofList text) = blanks ++ .number numeral :: behind ∧
    ∀ t ∈ blanks, t.isBlank = true
  /-- There are blanks alone in front of it, and between it and the rest. -/
  whole : ∃ before between, text = before ++ (numeral.toList ++ (between ++ rest)) ∧
    (∀ c ∈ before, Text.isBlank c = true) ∧ ∀ c ∈ between, Text.isBlank c = true
  /-- All of these blanks are left out of the rest. -/
  stop : Stops Text.isBlank rest

/-- Behind blanks, a text begins with a digit or a point. -/
def BeginsNumeral (text : List Char) : Prop :=
  ∃ c, (text.dropWhile Text.isBlank).head? = some c ∧ (c.isDigit = true ∨ c = '.')

open CutLemmas

/-- There is a numeral in front of a text that begins with a digit or a point. -/
theorem exists_front (clean : Text.Clean text) (begins : BeginsNumeral text) :
    ∃ numeral rest, Front text numeral rest := by
  obtain ⟨c, first, begins⟩ := begins
  obtain ⟨others, visible⟩ := List.head?_eq_some_iff.1 first
  have cut : Cut .opening (c :: others) _ _ := .numeral (by decide) rfl begins
  have taken := Numeral.scan_append (c :: others)
  generalize (Numeral.scan (c :: others)).2 = left at cut taken
  generalize (Numeral.scan (c :: others)).1.text = digits at cut taken
  have tokens := dropWhile_scan .opening text
  rw [visible, cut.scan_eq] at tokens
  refine ⟨String.ofList digits, left.dropWhile Text.isBlank,
    ⟨(scan .opening text).takeWhile isBlank,
      scan (placeAfter .opening (.number (String.ofList digits))) left, ?_,
      fun t mem => List.mem_takeWhile_imp mem⟩,
    ⟨text.takeWhile Text.isBlank, left.takeWhile Text.isBlank, ?_,
      fun d mem => List.mem_takeWhile_imp mem, fun d mem => List.mem_takeWhile_imp mem⟩,
    stops_dropWhile _ _⟩
  · rw [ofText_ofList clean, ← tokens, List.takeWhile_append_dropWhile]
  · rw [String.toList_ofList, List.takeWhile_append_dropWhile, taken, ← visible,
      List.takeWhile_append_dropWhile]

/-- A numeral in front of a text is the token that is cut off it behind the blanks. -/
theorem Front.cut (front : Front text numeral rest) (clean : Text.Clean text) :
    ∃ left, Cut .opening (text.dropWhile Text.isBlank) (.number numeral) left ∧
      left.dropWhile Text.isBlank = rest := by
  obtain ⟨⟨blanks, behind, tokens, blank⟩, ⟨before, between, whole, inFront, gap⟩, stop⟩ := front
  have first : scan .opening (text.dropWhile Text.isBlank) = .number numeral :: behind := by
    rw [← dropWhile_scan, ← ofText_ofList clean, tokens, List.dropWhile_append_of_pos blank]
    rfl
  obtain ⟨left, cut⟩ := exists_cut first
  obtain ⟨c, others, visible, begins, taken⟩ := cut.numeral_eq
  obtain ⟨ds, digits⟩ := text_scan_eq_cons begins others
  rw [visible, digits] at taken
  have shape : text.dropWhile Text.isBlank = numeral.toList ++ (between ++ rest) := by
    rw [whole, taken]
    exact Text.dropWhile_append inFront fun d first =>
      Option.some.inj first ▸ visible_of_numeral begins
  -- What is left begins where the numeral ends, so with the blanks behind it.
  have wide : (Token.number numeral).width = numeral.toList.length := LiteralLemmas.width_eq _
  have left_eq := cut.drop_width
  rw [shape, wide, List.drop_left] at left_eq
  exact ⟨left, cut, by rw [← left_eq, Text.dropWhile_append gap stop]⟩

namespace SplitLemmas

/-- The blank that a text begins with is left out behind a number. -/
theorem skip_blank (n : LineNumber) (place : Place) (cs : List Char) :
    (match scan place cs with
      | .blank _ :: rest => .ok (some n, rest)
      | rest => .ok (some n, rest) : Except Error (Option LineNumber × List Token)) =
      .ok (some n, scan place (cs.dropWhile Text.isBlank)) := by
  cases cs with
  | nil => simp [scan]
  | cons c cs =>
    cases blank : Text.isBlank c with
    | true =>
      obtain ⟨width, tokens⟩ := scan_of_isBlank place blank cs
      rw [tokens, List.dropWhile_cons_of_pos blank]
    | false =>
      have cut := cut_takeFirst place c cs
      have solid := cut.isBlank_eq.trans blank
      rw [List.dropWhile_cons_of_neg (by simp [blank]), cut.scan_eq]
      generalize (takeFirst place c cs).1 = t at solid
      cases t with
      | blank => cases solid
      | _ => rfl

end SplitLemmas

open SplitLemmas

theorem Front.ne_empty (front : Front text numeral rest) (clean : Text.Clean text) :
    numeral ≠ "" := by
  obtain ⟨left, cut, _⟩ := front.cut clean
  obtain ⟨c, others, visible, begins, taken⟩ := cut.numeral_eq
  obtain ⟨ds, digits⟩ := text_scan_eq_cons begins others
  rw [visible, digits] at taken
  rintro rfl
  cases taken

theorem Front.suffix (front : Front text numeral rest) : rest <:+ text := by
  obtain ⟨before, between, whole, _⟩ := front.whole
  exact ⟨before ++ (numeral.toList ++ between), by rw [whole]; simp only [List.append_assoc]⟩

/-- The number and the tokens that are taken off a text with a numeral in front. -/
theorem Front.takeNumber_eq (front : Front text numeral rest) (clean : Text.Clean text) :
    takeNumber (Token.ofText (String.ofList text)) =
      (Token.number numeral).lineNumber.map fun n =>
        (some n, Token.ofText (String.ofList rest)) := by
  obtain ⟨left, cut, behind⟩ := front.cut clean
  have tokens : (Token.ofText (String.ofList text)).dropWhile isBlank =
      .number numeral :: scan (placeAfter .opening (.number numeral)) left := by
    rw [ofText_ofList clean, dropWhile_scan, cut.scan_eq]
  rw [takeNumber, tokens]
  cases known : (Token.number numeral).lineNumber with
  | error e => simp only [known, Except.map]
  | ok n =>
    -- A line number has digits alone, so the statement behind it begins at the opening.
    have digits := digits_of_lineNumber known
    have opening : placeAfter .opening (.number numeral) = .opening :=
      placeAfter_digits digits (by decide)
    simp only [known, Except.map, opening, ofText_ofList (clean.of_suffix front.suffix)]
    exact behind ▸ skip_blank n .opening left

/-- No number is taken off a text that does not begin with one. -/
theorem takeNumber_of_direct (clean : Text.Clean text) (direct : ¬ BeginsNumeral text) :
    takeNumber (Token.ofText (String.ofList text)) =
      .ok (none, Token.ofText (String.ofList (text.dropWhile Text.isBlank))) := by
  have suffix := List.dropWhile_suffix (l := text) Text.isBlank
  have tokens : (Token.ofText (String.ofList text)).dropWhile isBlank =
      Token.ofText (String.ofList (text.dropWhile Text.isBlank)) := by
    rw [ofText_ofList clean, dropWhile_scan, ofText_ofList (clean.of_suffix suffix)]
  rw [takeNumber, tokens]
  split
  next numeral behind first =>
    rw [ofText_ofList (clean.of_suffix suffix)] at first
    obtain ⟨left, cut⟩ := exists_cut first
    obtain ⟨c, others, visible, begins, _⟩ := cut.numeral_eq
    exact absurd ⟨c, by rw [visible, List.head?_cons], begins⟩ direct
  next => rfl

/-- What a text with a numeral in front is split up into. -/
theorem ofText_of_front (short : (Text.trimEnd s.toList).length ≤ maxLength)
    (front : Front (Text.trimEnd s.toList) numeral rest) :
    ofText s = (Token.number numeral).lineNumber.map fun n =>
      ⟨some n, Token.ofText (String.ofList rest), String.ofList (Text.trimEnd s.toList)⟩ := by
  rw [ofText, if_neg (Nat.not_lt.2 short), front.takeNumber_eq (Text.clean_trimEnd _)]
  cases (Token.number numeral).lineNumber <;> rfl

/-- What a text without a numeral in front is split up into. -/
theorem ofText_of_direct (short : (Text.trimEnd s.toList).length ≤ maxLength)
    (direct : ¬ BeginsNumeral (Text.trimEnd s.toList)) :
    ofText s = .ok ⟨none,
      Token.ofText (String.ofList ((Text.trimEnd s.toList).dropWhile Text.isBlank)),
      String.ofList (Text.trimEnd s.toList)⟩ := by
  rw [ofText, if_neg (Nat.not_lt.2 short),
    takeNumber_of_direct (Text.clean_trimEnd _) direct]

/-! ## 4. What a text is split up into -/

/-- A line has been made of a text: it has a number or none, and its statement is cut from the rest
of the text. -/
structure MadeOf (line : Line) (whole : List Char) (n : Option LineNumber) (rest : List Char) :
    Prop where
  text : line.text = String.ofList whole
  number : line.number = n
  /-- The rest has the tokens that it has by itself. -/
  tokens : line.tokens = Token.ofText (String.ofList rest)
  /-- So it is read as it is by itself, with the number for the errors. -/
  statement : line.statement = Statement.ofTokens n (Token.ofText (String.ofList rest))
  /-- The line is empty just if there is no rest. -/
  isEmpty : line.isEmpty = true ↔ rest = []

/-- What a text with no white space at its end is split up into, or why it is refused. -/
inductive Splits (text : List Char) : Except Error Line → Prop
  /-- There are too many characters. -/
  | overlong (long : maxLength < text.length) : Splits text (.error (.of .lineBufferOverflow))
  /-- The numeral in front has other characters than digits. -/
  | malformed {numeral : String} {rest : List Char} (short : text.length ≤ maxLength)
      (front : Front text numeral rest) (other : ¬ AllDigits numeral.toList) :
      Splits text (.error .invalidLineNumber)
  /-- The numeral in front is a zero. -/
  | zero {numeral : String} {rest : List Char} (short : text.length ≤ maxLength)
      (front : Front text numeral rest) (digits : AllDigits numeral.toList)
      (zero : Token.valueOf numeral = 0) : Splits text (.error .invalidLineNumber)
  /-- The numeral in front is too large. -/
  | beyond {numeral : String} {rest : List Char} (short : text.length ≤ maxLength)
      (front : Front text numeral rest) (digits : AllDigits numeral.toList)
      (large : LineNumber.max < Token.valueOf numeral) : Splits text (.error .lineNumberOverflow)
  /-- The numeral in front is a line number. -/
  | numbered {numeral : String} {rest : List Char} {line : Line} (short : text.length ≤ maxLength)
      (front : Front text numeral rest) (digits : AllDigits numeral.toList)
      (positive : 1 ≤ Token.valueOf numeral) (fits : Token.valueOf numeral ≤ LineNumber.max)
      (made : line.MadeOf text (some (Token.valueOf numeral)) rest) : Splits text (.ok line)
  /-- There is no numeral in front. -/
  | direct {line : Line} (short : text.length ≤ maxLength) (direct : ¬ BeginsNumeral text)
      (made : line.MadeOf text none (text.dropWhile Text.isBlank)) : Splits text (.ok line)

theorem MadeOf.eq {line : Line} {n : Option LineNumber} (made : line.MadeOf text n rest) :
    line = ⟨n, Token.ofText (String.ofList rest), String.ofList text⟩ := by
  obtain ⟨number, tokens, whole⟩ := line
  obtain ⟨rfl, rfl, rfl, _, _⟩ := made
  rfl

/-- What a line is made of, when its text and the rest of it are known. -/
theorem MadeOf.of_clean (clean : Text.Clean rest) (n : Option LineNumber) (text : List Char) :
    MadeOf ⟨n, Token.ofText (String.ofList rest), String.ofList text⟩ text n rest where
  text := rfl
  number := rfl
  tokens := rfl
  statement := rfl
  isEmpty := by
    show (Token.ofText (String.ofList rest)).isEmpty = true ↔ rest = []
    rw [List.isEmpty_iff, ofText_ofList clean, scan_eq_nil_iff]

/-- Every text is split up. -/
theorem splits (s : String) : Splits (Text.trimEnd s.toList) (ofText s) := by
  have clean := Text.clean_trimEnd s.toList
  rcases Nat.lt_or_ge maxLength (Text.trimEnd s.toList).length with long | short
  · rw [ofText, if_pos long]
    exact .overlong long
  by_cases begins : BeginsNumeral (Text.trimEnd s.toList)
  · obtain ⟨numeral, rest, front⟩ := exists_front clean begins
    rw [ofText_of_front short front]
    by_cases digits : AllDigits numeral.toList
    · rw [lineNumber_of_digits digits (front.ne_empty clean)]
      split
      next large => exact .beyond short front digits large
      next fits =>
        split
        next zero => exact .zero short front digits zero
        next positive =>
          exact .numbered short front digits (Nat.pos_of_ne_zero positive) (Nat.le_of_not_lt fits)
            (.of_clean (clean.of_suffix front.suffix) _ _)
    · rw [lineNumber_of_not_digits digits]
      exact .malformed short front digits
  · rw [ofText_of_direct short begins]
    exact .direct short begins (.of_clean (clean.of_suffix (List.dropWhile_suffix _)) _ _)

/-- The statement of a line is read from a text by itself. -/
theorem exists_statement {line : Line} (known : ofText s = .ok line) :
    ∃ rest, line.statement = Statement.ofTokens line.number (Token.ofText rest) := by
  have came := splits s
  rw [known] at came
  cases came with
  | numbered _ _ _ _ _ made | direct _ _ made => exact ⟨_, by rw [made.statement, made.number]⟩

/-- There is no other way to split up a text. -/
theorem Splits.ofText_eq (splits : Splits (Text.trimEnd s.toList) result) : ofText s = result := by
  have clean := Text.clean_trimEnd s.toList
  cases splits with
  | overlong long => rw [ofText, if_pos long]
  | malformed short front other =>
    rw [ofText_of_front short front, lineNumber_of_not_digits other]
    rfl
  | zero short front digits zero =>
    rw [ofText_of_front short front, lineNumber_of_digits digits (front.ne_empty clean), zero]
    rfl
  | beyond short front digits large =>
    rw [ofText_of_front short front, lineNumber_of_digits digits (front.ne_empty clean),
      if_pos large]
    rfl
  | numbered short front digits positive fits made =>
    rw [ofText_of_front short front, lineNumber_of_digits digits (front.ne_empty clean),
      if_neg (Nat.not_lt.2 fits), if_neg (Nat.ne_of_gt positive), made.eq]
    rfl
  | direct short direct made => rw [ofText_of_direct short direct, made.eq]

/-- A text is split up as its characters say. It is too long just if more than so many of them are
left when white space has been trimmed from its end; otherwise its number is taken off, and its
statement has the tokens that it has by itself. -/
theorem split_ofText (s : String) :
    (∀ result, ofText s = result ↔ Splits (Text.trimEnd s.toList) result) ∧
    ((∃ e, ofText s = .error e ∧ e.code = .lineBufferOverflow) ↔
      1024 < (Text.trimEnd s.toList).length) := by
  refine ⟨fun result => ⟨fun same => same ▸ splits s, Splits.ofText_eq⟩, ?_, fun long => ?_⟩
  · rintro ⟨e, refused, code⟩
    have came := splits s
    rw [refused] at came
    cases came with
    | overlong long => exact long
    | malformed | zero | beyond => cases code
  · exact ⟨_, Splits.ofText_eq (.overlong long), rfl⟩

-- An `E` without digits behind it belongs to the statement.
example : ofText "\t10E = 5 " =
    .ok ⟨some 10, [.word "E", .blank 1, .operator .equal, .blank 1, .number "5"], "\t10E = 5"⟩ := by
  decide +kernel

end Line

end LineBasic
