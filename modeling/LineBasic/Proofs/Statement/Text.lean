import LineBasic.Proofs.Expr.Text

/-!
# Written statements

The text of a statement is cut into its words, and these stand for the statement itself, with every
constant as it is written and read. So whatever has been read from a text can be written in its
standard form and read again, and no more than the later digits of its constants is lost.

Results:
1. `solid_ofText_text`: the text of a well-formed statement is cut into its words.
2. `derives_words`: the words stand for the statement with its constants written and read.
3. `ofTokens_ofText_text`: a statement that was read from a text is read again from its own text.
-/

namespace LineBasic

namespace Statement

/-- With every constant replaced by what `f` makes of it, if it makes something of all of them. -/
def mapConstants? (f : Number → Option Number) : Statement → Option Statement
  | remark text => some (remark text)
  | assign name value => do return assign name (← value.mapConstants? f)
  | print literal values => do return print literal (← values.mapM (·.mapConstants? f))
  | input name => some (input name)
  | jump target => some (jump target)
  | branch left comparison right target => do
    return branch (← left.mapConstants? f) comparison (← right.mapConstants? f) target
  | stop => some stop

/-- The words of expressions with a comma before each. -/
def moreWords (values : List Expr) : List Token := values.flatMap fun e => .comma :: e.words

/-- The words behind `PRINT`. -/
def printWords : Option String → List Expr → List Token
  | some literal, values => .string literal :: moreWords values
  | none, [] => []
  | none, e :: values => e.words ++ moreWords values

/-- The words that a statement is written with. -/
def words : Statement → List Token
  | remark text => .word Keyword.rem.spelling :: if text = "" then [] else [.remark text]
  | assign name value =>
    .word Keyword.let.spelling :: .word name :: .operator .equal :: value.words
  | print literal values => .word Keyword.print.spelling :: printWords literal values
  | input name => [.word Keyword.input.spelling, .word name]
  | jump target => [.word Keyword.goto.spelling, .number (toString target)]
  | branch left comparison right target =>
    .word Keyword.if.spelling :: (left.words ++ .operator comparison.operator ::
      (right.words ++ [.word "THEN", .number (toString target)]))
  | stop => [.word Keyword.end.spelling]

variable {rest : List Char} {statement : Statement}

/-! ## 1. The words of a written statement -/

namespace TextLemmas

open Token Text

theorem isName_spelling (keyword : Keyword) : IsName keyword.spelling := by
  cases keyword <;> exact ⟨_, _, rfl, by decide, List.all_eq_true.1 (by decide)⟩

theorem wordsAt_keyword {keyword : Keyword} (other : keyword ≠ .rem) (apart : Apart rest) :
    wordsAt .opening (keyword.spelling.toList ++ rest) =
      .word keyword.spelling :: wordsAt .inside rest := by
  have place : placeAfter .opening (.word keyword.spelling) = .inside := by
    cases keyword with
    | rem => exact absurd rfl other
    | _ => decide
  rw [wordsAt_name (isName_spelling keyword) (by decide) apart, place]

theorem wordsAt_keyword_blank {keyword : Keyword} (other : keyword ≠ .rem) (rest : List Char) :
    wordsAt .opening (keyword.spelling.toList ++ ' ' :: rest) =
      .word keyword.spelling :: wordsAt .inside rest := by
  rw [wordsAt_keyword other (apart_cons (by decide) _), wordsAt_blank rfl]

theorem wordsAt_inside_name {name : String} (isName : IsName name) (apart : Apart rest) :
    wordsAt .inside (name.toList ++ rest) = .word name :: wordsAt .inside rest :=
  wordsAt_name isName (by decide) apart

theorem wordsAt_lineNumber (n : Nat) :
    wordsAt .inside (toString n).toList = [.number (toString n)] := by
  have cut := wordsAt_digits (SixDigits.FormatLemmas.allDigits_toDigits n) Nat.toDigits_ne_nil
    (show Place.inside ≠ .remark by decide) apart_nil
  rw [List.append_nil, LexerLemmas.wordsAt_nil] at cut
  rw [Nat.toString_eq_ofList_toDigits, String.toList_ofList, cut]

/-- The text of expressions with a comma before each. -/
def moreText (values : List Expr) : List Char := values.flatMap fun e => ',' :: ' ' :: e.text.toList

theorem apart_moreText (values : List Expr) : Apart (moreText values) := by
  cases values with
  | nil => exact apart_nil
  | cons => exact apart_cons (by decide) _

theorem wordsAt_more {values : List Expr} (wellFormed : ∀ e ∈ values, e.WellFormed) :
    wordsAt .inside (moreText values) = moreWords values := by
  induction values with
  | nil => exact LexerLemmas.wordsAt_nil
  | cons e values ih =>
    have others := ih fun e mem => wellFormed e (List.mem_cons_of_mem _ mem)
    rw [moreText, List.flatMap_cons, moreWords, List.flatMap_cons, List.cons_append,
      List.cons_append, wordsAt_symbol (t := .comma) rfl (by decide), wordsAt_blank rfl]
    show .comma :: wordsAt .inside (e.text.toList ++ moreText values) = _
    rw [Expr.wordsAt_text (wellFormed e List.mem_cons_self) (apart_moreText values), others]
    rfl

theorem toList_intercalate (first : String) (values : List Expr) :
    (String.intercalate ", " (first :: values.map Expr.text)).toList =
      first.toList ++ moreText values := by
  induction values generalizing first with
  | nil => simp [moreText]
  | cons e values ih =>
    rw [List.map_cons, String.intercalate_cons_cons, String.toList_append, String.toList_append, ih]
    simp [moreText]

theorem endsVisibly_intercalate {first : String} (visible : EndsVisibly first)
    {values : List Expr} (wellFormed : ∀ e ∈ values, e.WellFormed) :
    EndsVisibly (String.intercalate ", " (first :: values.map Expr.text)) := by
  induction values generalizing first with
  | nil => simpa using visible
  | cons e values ih =>
    rw [List.map_cons, String.intercalate_cons_cons]
    exact (ih (Expr.endsVisibly_text (wellFormed e List.mem_cons_self))
      fun e mem => wellFormed e (List.mem_cons_of_mem _ mem)).append _

end TextLemmas

open TextLemmas

/-- Behind `REM` all that is left is one word. -/
theorem wordsAt_text_remark {text : String} (isRemark : IsRemark text) :
    Token.wordsAt .opening (Statement.text (.remark text)).toList = words (.remark text) := by
  have rem : Text.sameWord Keyword.rem.spelling "REM" = true := by decide
  by_cases empty : text = ""
  · have shape : (Statement.text (.remark text)).toList = Keyword.rem.spelling.toList ++ [] := by
      rw [Statement.text, if_pos empty]
      rfl
    have left : text.toList = [].dropWhile Text.isBlank := String.toList_eq_nil_iff.2 empty
    rw [shape, Token.wordsAt_rem rem (fun c first => (Text.apart_nil c first).1) left]
    rfl
  · have shape : (Statement.text (.remark text)).toList =
        Keyword.rem.spelling.toList ++ ([' '] ++ text.toList) := by
      rw [Statement.text, if_neg empty]
      simp [Keyword.spelling]
    have apart : Text.Apart ([' '] ++ text.toList) := Text.apart_cons (by decide) _
    have blank : ∀ c ∈ [' '], Text.isBlank c = true := List.forall_mem_singleton.2 rfl
    rw [shape, Token.wordsAt_rem rem (fun c first => (apart c first).1)
      (Text.dropWhile_append blank isRemark.1).symm]
    rfl

/-- The literal and the values behind `PRINT` have commas between them. -/
theorem wordsAt_text_print {literal : Option String} {values : List Expr}
    (wellFormed : (print literal values).WellFormed) :
    Token.wordsAt .opening (text (.print literal values)).toList =
      words (.print literal values) := by
  obtain ⟨closed, values_wf, holds⟩ := wellFormed
  have shape (first : String) (others : List Expr)
      (h : (literal.map fun s => "\"" ++ s ++ "\"").toList ++ values.map Expr.text =
        first :: others.map Expr.text) :
      (text (.print literal values)).toList =
        Keyword.print.spelling.toList ++ ' ' :: (first.toList ++ moreText others) := by
    simp only [text, h, reduceCtorEq, if_false, String.toList_append, toList_intercalate]
    rfl
  cases literal with
  | some s =>
    have more := wordsAt_more values_wf
    have quoted : ("\"" ++ s ++ "\"").toList ++ moreText values =
        '"' :: (s.toList ++ '"' :: moreText values) := by simp
    rw [shape ("\"" ++ s ++ "\"") values rfl, wordsAt_keyword_blank (by decide), quoted,
      Token.wordsAt_string (closed s rfl) (by decide), more]
    rfl
  | none =>
    cases values with
    | nil => simp at holds
    | cons e others =>
      have more := wordsAt_more fun e mem => values_wf e (List.mem_cons_of_mem _ mem)
      rw [shape e.text others rfl, wordsAt_keyword_blank (by decide),
        Expr.wordsAt_text (values_wf e List.mem_cons_self) (apart_moreText others), more]
      rfl

/-- The text of a well-formed statement is cut into its words. -/
theorem wordsAt_text (wellFormed : statement.WellFormed) :
    Token.wordsAt .opening statement.text.toList = statement.words := by
  cases statement with
  | remark text => exact wordsAt_text_remark wellFormed
  | assign name value =>
    obtain ⟨isName, value_wf⟩ := wellFormed
    have shape : (text (.assign name value)).toList = Keyword.let.spelling.toList ++
        ' ' :: (name.toList ++ ' ' :: '=' :: ' ' :: (value.text.toList ++ [])) := by
      simp [text, Keyword.spelling]
    rw [shape, wordsAt_keyword_blank (by decide),
      wordsAt_inside_name isName (Text.apart_cons (by decide) _), Token.wordsAt_blank rfl,
      Token.wordsAt_symbol (t := .operator .equal) rfl (by decide), Token.wordsAt_blank rfl,
      Expr.wordsAt_text value_wf Text.apart_nil, Token.LexerLemmas.wordsAt_nil, List.append_nil]
    rfl
  | print literal values => exact wordsAt_text_print wellFormed
  | input name =>
    have shape : (text (.input name)).toList =
        Keyword.input.spelling.toList ++ ' ' :: (name.toList ++ []) := by
      simp [text, Keyword.spelling]
    rw [shape, wordsAt_keyword_blank (by decide), wordsAt_inside_name wellFormed Text.apart_nil,
      Token.LexerLemmas.wordsAt_nil]
    rfl
  | jump target =>
    have shape : (text (.jump target)).toList =
        Keyword.goto.spelling.toList ++ ' ' :: (toString target).toList := by
      simp [text, Keyword.spelling]
    rw [shape, wordsAt_keyword_blank (by decide), wordsAt_lineNumber]
    rfl
  | branch left comparison right target =>
    obtain ⟨left_wf, right_wf, _⟩ := wellFormed
    have shape : (text (.branch left comparison right target)).toList =
        Keyword.if.spelling.toList ++ ' ' :: (left.text.toList ++ ' ' ::
          comparison.operator.symbol :: ' ' :: (right.text.toList ++ ' ' ::
            ("THEN".toList ++ ' ' :: (toString target).toList))) := by
      simp [text, Keyword.spelling]
    have symbol : Token.ofChar? comparison.operator.symbol = some (.operator comparison.operator) := by
      cases comparison <;> decide
    have isName : IsName "THEN" := ⟨'T', _, rfl, by decide, List.all_eq_true.1 (by decide)⟩
    rw [shape, wordsAt_keyword_blank (by decide),
      Expr.wordsAt_text left_wf (Text.apart_cons (by decide) _), Token.wordsAt_blank rfl,
      Token.wordsAt_symbol symbol (by decide), Token.wordsAt_blank rfl,
      Expr.wordsAt_text right_wf (Text.apart_cons (by decide) _), Token.wordsAt_blank rfl,
      wordsAt_inside_name isName (Text.apart_cons (by decide) _), Token.wordsAt_blank rfl,
      wordsAt_lineNumber]
    rfl
  | stop =>
    have shape : (text .stop).toList = Keyword.end.spelling.toList ++ [] := rfl
    rw [shape, wordsAt_keyword (by decide) Text.apart_nil, Token.LexerLemmas.wordsAt_nil]
    rfl

theorem endsVisibly_lineNumber (n : Nat) : Text.EndsVisibly (toString n) := by
  rw [Nat.toString_eq_ofList_toDigits]
  refine Text.endsVisibly_of_forall ?_ ?_
  · rw [String.toList_ofList]
    intro c mem
    have digit := SixDigits.FormatLemmas.allDigits_toDigits n c mem
    exact Text.isSpace_of_isAlphanum (NumeralLemmas.isAlphanum_of_isDigit digit)
  · rw [String.toList_ofList]
    exact Nat.toDigits_ne_nil

/-- The text of a statement has no white space at its end. -/
theorem endsVisibly_text (wellFormed : statement.WellFormed) : Text.EndsVisibly statement.text := by
  cases statement with
  | remark text =>
    rw [Statement.text]
    split
    · exact ⟨['R', 'E'], 'M', rfl, by decide⟩
    next full =>
      refine Text.EndsVisibly.append ?_ _
      rcases List.eq_nil_or_concat' text.toList with none | ⟨front, c, shape⟩
      · exact absurd (String.toList_eq_nil_iff.1 none) full
      · exact ⟨front, c, shape, wellFormed.2 c (by rw [shape, List.getLast?_concat])⟩
  | assign name value => exact (Expr.endsVisibly_text wellFormed.2).append _
  | print literal values =>
    obtain ⟨_, values_wf, holds⟩ := wellFormed
    unfold text
    cases literal with
    | some s =>
      have visible : Text.EndsVisibly ("\"" ++ s ++ "\"") :=
        Text.EndsVisibly.append ⟨[], '"', rfl, by decide⟩ _
      exact (endsVisibly_intercalate visible values_wf).append _
    | none =>
      cases values with
      | nil => simp at holds
      | cons e others =>
        exact (endsVisibly_intercalate (Expr.endsVisibly_text (values_wf e List.mem_cons_self))
          fun e mem => values_wf e (List.mem_cons_of_mem _ mem)).append _
  | input name => exact (IsName.endsVisibly wellFormed).append _
  | jump target => exact (endsVisibly_lineNumber target).append _
  | branch left comparison right target => exact (endsVisibly_lineNumber target).append _
  | stop => exact ⟨['E', 'N'], 'D', rfl, by decide⟩

theorem trimRemark_of_mem_moreWords {values : List Expr} :
    ∀ t ∈ moreWords values, t.trimRemark = t := by
  intro t mem
  obtain ⟨e, _, mem⟩ := List.mem_flatMap.1 mem
  rcases List.mem_cons.1 mem with rfl | mem
  · rfl
  · exact Expr.trimRemark_of_mem_words t mem

/-- The words of a statement hold no remark that is still to be trimmed. -/
theorem trimRemark_of_mem_words (wellFormed : statement.WellFormed) :
    ∀ t ∈ statement.words, t.trimRemark = t := by
  intro t mem
  cases statement with
  | remark text =>
    unfold words at mem
    rcases List.mem_cons.1 mem with rfl | mem
    · rfl
    · split at mem
      · cases mem
      · obtain rfl := List.mem_singleton.1 mem
        have kept : Text.trimEnd text.toList = text.toList :=
          Text.dropTrailing_eq_self_iff.2 wellFormed.2
        rw [Token.trimRemark, kept, String.ofList_toList]
  | assign name value =>
    simp only [words, List.mem_cons] at mem
    rcases mem with rfl | rfl | rfl | mem
    · rfl
    · rfl
    · rfl
    · exact Expr.trimRemark_of_mem_words t mem
  | print literal values =>
    rcases List.mem_cons.1 mem with rfl | mem
    · rfl
    · cases literal with
      | some s =>
        rcases List.mem_cons.1 mem with rfl | mem
        · rfl
        · exact trimRemark_of_mem_moreWords t mem
      | none =>
        cases values with
        | nil => cases mem
        | cons e others =>
          rcases List.mem_append.1 mem with mem | mem
          · exact Expr.trimRemark_of_mem_words t mem
          · exact trimRemark_of_mem_moreWords t mem
  | branch left comparison right target =>
    simp only [words, List.mem_cons, List.mem_append, List.not_mem_nil, or_false] at mem
    rcases mem with rfl | mem | rfl | mem | rfl | rfl
    · rfl
    · exact Expr.trimRemark_of_mem_words t mem
    · rfl
    · exact Expr.trimRemark_of_mem_words t mem
    · rfl
    · rfl
  | input | jump | stop =>
    simp only [words, List.mem_cons, List.not_mem_nil, or_false] at mem
    rcases mem with rfl | rfl <;> rfl

/-- The text of a well-formed statement is cut into its words. -/
theorem solid_ofText_text (wellFormed : statement.WellFormed) :
    Token.solid (Token.ofText statement.text) = statement.words := by
  have kept : Text.dropTrailing Text.isLineEnd statement.text.toList = statement.text.toList := by
    obtain ⟨front, c, shape, visible⟩ := endsVisibly_text wellFormed
    refine Text.dropTrailing_eq_self_iff.2 fun d last => Bool.eq_false_iff.2 fun lineEnd => ?_
    rw [shape, List.getLast?_concat] at last
    obtain rfl := Option.some.inj last
    rw [Text.isSpace_of_isLineEnd lineEnd] at visible
    cases visible
  rw [Token.solid_ofText, kept, wordsAt_text wellFormed]
  exact (List.map_congr_left (trimRemark_of_mem_words wellFormed)).trans (List.map_id _)

/-! ## 2. What the words stand for -/

theorem spells_spelling (keyword : Keyword) : Keyword.Spells keyword.spelling keyword := by
  simp [Keyword.Spells, Text.sameWord]

theorem lineNumber_toString {n : Nat} (range : 1 ≤ n ∧ n ≤ LineNumber.max) :
    (Token.number (toString n)).lineNumber = .ok n := by
  have digits : (toString n).toList = Nat.toDigits 10 n := by
    rw [Nat.toString_eq_ofList_toDigits, String.toList_ofList]
  have all : (Nat.toDigits 10 n).all Char.isDigit = true :=
    List.all_eq_true.2 (SixDigits.FormatLemmas.allDigits_toDigits n)
  have full : ¬ (toString n = "" ∨ LineNumber.max < n) := by
    rintro (empty | large)
    · rw [empty] at digits
      exact Nat.toDigits_ne_nil digits.symm
    · exact Nat.not_lt.2 range.2 large
  have positive : n ≠ 0 := Nat.ne_of_gt range.1
  simp only [Token.lineNumber, digits, all, if_true, Nat.ofDigitChars_ten_toDigits, full, positive,
    if_false]

theorem derives_moreWords {values : List Expr} (wellFormed : ∀ e ∈ values, e.WellFormed) :
    ∃ values', (values.mapM fun e => e.mapConstants? fun value => Number.read value.format) =
      some values' ∧ DerivesMore (moreWords values) values' := by
  induction values with
  | nil => exact ⟨[], rfl, .nil⟩
  | cons e values ih =>
    obtain ⟨e', mapped, derived⟩ := Expr.derives_words (wellFormed e List.mem_cons_self)
    obtain ⟨values', others, more⟩ := ih fun e mem => wellFormed e (List.mem_cons_of_mem _ mem)
    refine ⟨e' :: values', ?_, .cons (.sum (Expr.TextLemmas.derives_sum derived)) more⟩
    rw [List.mapM_cons, mapped, others]
    rfl

/-- A remark that is one word is read as it is. -/
theorem derives_remark {word : String} (rem : Keyword.Spells word .rem) (text : String) :
    Derives (.word word :: if text = "" then [] else [.remark text]) (.remark text) := by
  have derived := Derives.remark (w := if text = "" then [] else [.remark text]) rem
  have whole : remarkText (if text = "" then [] else [.remark text]) = text := by
    split
    next empty => exact empty.symm
    next => simp [remarkText, Token.text]
  rwa [whole] at derived

/-- The words of a statement stand for it, with every constant as it is written and read. -/
theorem derives_words (wellFormed : statement.WellFormed) :
    ∃ statement', statement.mapConstants? (fun value => Number.read value.format) =
      some statement' ∧ Derives statement.words statement' := by
  cases statement with
  | remark text => exact ⟨.remark text, rfl, derives_remark (spells_spelling .rem) text⟩
  | assign name value =>
    obtain ⟨value', mapped, derived⟩ := Expr.derives_words wellFormed.2
    refine ⟨.assign name value', ?_,
      .assign (spells_spelling .let) (.sum (Expr.TextLemmas.derives_sum derived))⟩
    rw [mapConstants?, mapped]
    rfl
  | print literal values =>
    obtain ⟨_, values_wf, holds⟩ := wellFormed
    cases literal with
    | some s =>
      obtain ⟨values', mapped, more⟩ := derives_moreWords values_wf
      refine ⟨.print (some s) values', ?_, .printLiteral (spells_spelling .print) more⟩
      rw [mapConstants?, mapped]
      rfl
    | none =>
      cases values with
      | nil => simp at holds
      | cons e others =>
        obtain ⟨e', mapped, derived⟩ := Expr.derives_words (values_wf e List.mem_cons_self)
        obtain ⟨others', mappedOthers, more⟩ :=
          derives_moreWords fun e mem => values_wf e (List.mem_cons_of_mem _ mem)
        refine ⟨.print none (e' :: others'), ?_,
          .print (spells_spelling .print) (.sum (Expr.TextLemmas.derives_sum derived)) more⟩
        rw [mapConstants?, List.mapM_cons, mapped, mappedOthers]
        rfl
  | input name => exact ⟨.input name, rfl, .input (spells_spelling .input)⟩
  | jump target =>
    exact ⟨.jump target, rfl, .jump (spells_spelling .goto) (lineNumber_toString wellFormed)⟩
  | branch left comparison right target =>
    obtain ⟨left_wf, right_wf, range⟩ := wellFormed
    obtain ⟨left', mappedLeft, derivedLeft⟩ := Expr.derives_words left_wf
    obtain ⟨right', mappedRight, derivedRight⟩ := Expr.derives_words right_wf
    refine ⟨.branch left' comparison right' target, ?_,
      .branch (spells_spelling .if) (Expr.TextLemmas.derives_sum derivedLeft)
        (Comparison.ofOperator?_operator comparison) (Expr.TextLemmas.derives_sum derivedRight)
        (by decide) (lineNumber_toString range)⟩
    rw [mapConstants?, mappedLeft, mappedRight]
    rfl
  | stop => exact ⟨.stop, rfl, .stop (spells_spelling .end)⟩

/-! ## 3. Writing and reading again -/

/-- A statement that was read from a text is read again from its own text, with every constant as it
is written and read and nothing else changed. -/
theorem ofTokens_ofText_text {s : String} {statement : Statement}
    (read : ofTokens none (Token.ofText s) = .ok statement) :
    ∃ statement', statement.mapConstants? (fun value => Number.read value.format) =
      some statement' ∧ ofTokens none (Token.ofText statement.text) = .ok statement' := by
  have wellFormed := wellFormed_of_ofText read
  obtain ⟨statement', mapped, derived⟩ := derives_words wellFormed
  refine ⟨statement', mapped, ofTokens_eq_ok_iff.2 ?_⟩
  rw [solid_ofText_text wellFormed]
  exact derived

/-- A constant of seven digits is read again as its first six. -/
theorem ofTokens_ofText_text_branch :
    let left : Expr := .arith .multiply (.assign (.var "a") (.var "b")) (.var "x")
    ofTokens none (Token.ofText "if (a = b) * x > 1234567 then 010") =
        .ok (.branch left .greater (.constant 1234567) 10) ∧
      ofTokens none (Token.ofText "IF ((a = b) * x) > 1.23457e+06 THEN 10") =
        .ok (.branch left .greater (.constant 1234570) 10) := by
  intro left
  have read : ofTokens none (Token.ofText "if (a = b) * x > 1234567 then 010") =
      .ok (.branch left .greater (.constant 1234567) 10) := by decide +kernel
  have written : (branch left .greater (.constant 1234567) 10).text =
      "IF ((a = b) * x) > 1.23457e+06 THEN 10" := by decide +kernel
  have six : (branch left .greater (.constant 1234567) 10).mapConstants?
      (fun value => Number.read value.format) =
      some (.branch left .greater (.constant 1234570) 10) := by decide +kernel
  obtain ⟨statement', mapped, again⟩ := ofTokens_ofText_text read
  rw [six] at mapped
  rw [written, ← Option.some.inj mapped] at again
  exact ⟨read, again⟩

end Statement

end LineBasic
