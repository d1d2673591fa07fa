import LineBasic.Proofs.Statement.Grammar
import LineBasic.Token.Lexer

/-!
# The language of statements

How each statement may be written, said in full: keywords in upper or lower case, a line number as
digits within range, the text of a remark put together from what follows `REM`. `Written` goes by
the statement where the grammar goes by the words, and it knows nothing of how words are read.

Results:
1. `Token.lineNumber_eq_ok_iff`, `remarkText_eq`: the words that stand for line numbers, and the
   text of a remark.
2. `derives_iff_written`: the grammar has each statement as it may be written.
3. `ofTokens_ok_iff_written`: exactly the written statements are read, and all else is refused.
-/

namespace LineBasic

/-! ## Line numbers -/

namespace Token

/-- A word is a numeral of digits alone, and its value is a line number. -/
def Numbers (t : Token) (n : LineNumber) : Prop :=
  ∃ digits : String, t = .number digits ∧ digits ≠ "" ∧ (∀ c ∈ digits.toList, c.isDigit = true) ∧
    Nat.ofDigitChars 10 digits.toList 0 = n ∧ 1 ≤ n ∧ n ≤ LineNumber.max

theorem lineNumber_eq_ok_iff {t : Token} {n : LineNumber} : t.lineNumber = .ok n ↔ t.Numbers n := by
  constructor
  · intro read
    obtain ⟨positive, fits⟩ := lineNumber_range read
    unfold lineNumber at read
    split at read
    next digits =>
      simp only at read
      split at read
      next all =>
        split at read
        · cases read
        next inRange =>
          split at read
          · cases read
          cases read
          exact ⟨digits, rfl, fun empty => inRange (.inl empty), List.all_eq_true.1 all, rfl,
            positive, fits⟩
      · cases read
    · cases read
  · rintro ⟨digits, rfl, full, all, rfl, positive, fits⟩
    have inRange : ¬ (digits = "" ∨ LineNumber.max < Nat.ofDigitChars 10 digits.toList 0) :=
      fun outside => outside.elim full (Nat.not_lt.2 fits)
    simp only [lineNumber, List.all_eq_true.2 all, if_true, if_neg inRange,
      if_neg (Nat.ne_of_gt positive)]

end Token

namespace Statement

/-! ## Remarks -/

/-- What follows `REM`, as one text: the texts of the words with single spaces between them, from
the first one on that is not empty. -/
def joinedTexts (w : List Token) : String :=
  String.intercalate " " ((w.map Token.text).dropWhile fun s => s == "")

theorem foldl_remark {text : String} (begun : text ≠ "") (w : List Token) :
    w.foldl (fun text t => (if text = "" then "" else text ++ " ") ++ t.text) text =
      String.intercalate " " (text :: w.map Token.text) := by
  induction w generalizing text with
  | nil => simp
  | cons t w ih =>
    have longer : text ++ " " ++ t.text ≠ "" := by simp [String.append_eq_empty_iff, begun]
    rw [List.foldl_cons, if_neg begun, ih longer, List.map_cons]
    cases w with
    | nil => simp [String.intercalate_cons_cons]
    | cons u w => simp [String.intercalate_cons_cons, String.append_assoc]

theorem remarkText_eq (w : List Token) : remarkText w = joinedTexts w := by
  induction w with
  | nil => rfl
  | cons t w ih =>
    by_cases empty : t.text = ""
    · simpa [remarkText, joinedTexts, empty] using ih
    · simpa [remarkText, joinedTexts, empty] using foldl_remark empty w

/-! ## Written statements -/

/-- The words that a statement may be written with. -/
def Written (w : List Token) : Statement → Prop
  | remark text => ∃ word v, Keyword.Spells word .rem ∧ w = .word word :: v ∧ text = joinedTexts v
  | assign name value => ∃ v, Expr.Derives .assignment v value ∧
      ((∃ word, Keyword.Spells word .let ∧ w = .word word :: .word name :: .operator .equal :: v) ∨
        (∀ keyword, ¬ Keyword.Spells name keyword) ∧ w = .word name :: .operator .equal :: v)
  | print (some literal) values => ∃ word v, Keyword.Spells word .print ∧ DerivesMore v values ∧
      w = .word word :: .string literal :: v
  | print none values => ∃ word u v first others, values = first :: others ∧
      Keyword.Spells word .print ∧ Expr.Derives .assignment u first ∧ DerivesMore v others ∧
      w = .word word :: (u ++ v)
  | input name => ∃ word, Keyword.Spells word .input ∧ w = [.word word, .word name]
  | jump target => ∃ word t, Keyword.Spells word .goto ∧ t.Numbers target ∧ w = [.word word, t]
  | branch left comparison right target => ∃ word u v next t, Keyword.Spells word .if ∧
      Expr.Derives .sum u left ∧ Expr.Derives .sum v right ∧
      Text.sameWord next "THEN" = true ∧ t.Numbers target ∧
      w = .word word :: (u ++ .operator comparison.operator :: (v ++ [.word next, t]))
  | stop => ∃ word, Keyword.Spells word .end ∧ w = [.word word]

theorem isWord_iff {t : Token} {keyword : String} :
    t.isWord keyword = true ↔ ∃ word, t = .word word ∧ Text.sameWord word keyword = true := by
  cases t <;> simp [Token.isWord]

theorem ofOperator?_eq_some_iff {op : Operator} {comparison : Comparison} :
    Comparison.ofOperator? op = some comparison ↔ op = comparison.operator := by
  constructor
  · intro found
    cases op <;> cases found <;> rfl
  · rintro rfl
    exact Comparison.ofOperator?_operator comparison

/-- The grammar has each statement as it may be written. -/
theorem derives_iff_written {w : List Token} {statement : Statement} :
    Derives w statement ↔ statement.Written w := by
  constructor
  · intro derived
    cases derived with
    | remark spells => exact ⟨_, _, spells, rfl, remarkText_eq _⟩
    | assign spells derived => exact ⟨_, derived, .inl ⟨_, spells, rfl⟩⟩
    | implicit plain derived => exact ⟨_, derived, .inr ⟨plain, rfl⟩⟩
    | printLiteral spells more => exact ⟨_, _, spells, more, rfl⟩
    | print spells first more => exact ⟨_, _, _, _, _, rfl, spells, first, more, rfl⟩
    | input spells => exact ⟨_, spells, rfl⟩
    | jump spells number => exact ⟨_, _, spells, Token.lineNumber_eq_ok_iff.1 number, rfl⟩
    | branch spells left compares right isThen number =>
      obtain ⟨next, rfl, same⟩ := isWord_iff.1 isThen
      obtain rfl := ofOperator?_eq_some_iff.1 compares
      exact ⟨_, _, _, next, _, spells, left, right, same, Token.lineNumber_eq_ok_iff.1 number, rfl⟩
    | stop spells => exact ⟨_, spells, rfl⟩
  · intro written
    cases statement with
    | remark text =>
      obtain ⟨word, v, spells, rfl, rfl⟩ := written
      rw [← remarkText_eq]
      exact .remark spells
    | assign name value =>
      obtain ⟨v, derived, ⟨word, spells, rfl⟩ | ⟨plain, rfl⟩⟩ := written
      · exact .assign spells derived
      · exact .implicit plain derived
    | print literal values =>
      cases literal with
      | some literal =>
        obtain ⟨word, v, spells, more, rfl⟩ := written
        exact .printLiteral spells more
      | none =>
        obtain ⟨word, u, v, first, others, rfl, spells, derived, more, rfl⟩ := written
        exact .print spells derived more
    | input name =>
      obtain ⟨word, spells, rfl⟩ := written
      exact .input spells
    | jump target =>
      obtain ⟨word, t, spells, numbers, rfl⟩ := written
      exact .jump spells (Token.lineNumber_eq_ok_iff.2 numbers)
    | branch left comparison right target =>
      obtain ⟨word, u, v, next, t, spells, derivedLeft, derivedRight, same, numbers, rfl⟩ := written
      exact .branch spells derivedLeft (Comparison.ofOperator?_operator comparison) derivedRight
        (isWord_iff.2 ⟨next, rfl, same⟩) (Token.lineNumber_eq_ok_iff.2 numbers)
    | stop =>
      obtain ⟨word, spells, rfl⟩ := written
      exact .stop spells

/-- Exactly the statements that some words are written as are read from them, and words that are no
statement are refused. No words are two statements, and blanks have no bearing on any of it. -/
theorem ofTokens_ok_iff_written (line : Option LineNumber) (tokens : List Token) :
    (∀ statement, ofTokens line tokens = .ok statement ↔
      statement.Written (Token.solid tokens)) ∧
    ((∃ e, ofTokens line tokens = .error e) ↔
      ∀ statement : Statement, ¬ statement.Written (Token.solid tokens)) ∧
    (∀ s s' : Statement, s.Written (Token.solid tokens) → s'.Written (Token.solid tokens) →
      s = s') := by
  have read_iff : ∀ statement, ofTokens line tokens = .ok statement ↔
      statement.Written (Token.solid tokens) :=
    fun statement => ofTokens_eq_ok_iff.trans derives_iff_written
  refine ⟨read_iff, ?_, fun s s' written written' => ?_⟩
  · simp only [← read_iff]
    cases ofTokens line tokens with
    | error e => simp
    | ok statement => simp
  · have read := (read_iff s).2 written
    rw [(read_iff s').2 written'] at read
    exact (Except.ok.inj read).symm

-- A keyword is a variable where an expression is expected.
example : ofTokens none (Token.ofText "IF THEN = THEN THEN 40") =
    .ok (.branch (.var "THEN") .equal (.var "THEN") 40) := by
  decide +kernel

end Statement

end LineBasic
