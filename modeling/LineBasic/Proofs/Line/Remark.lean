import LineBasic.Proofs.Line.Split
import LineBasic.Proofs.Statement.Language
import LineBasic.Proofs.Statement.Text

/-!
# Remarks are kept as they are

Behind `REM` all of a line is one remark, whatever its characters would mean elsewhere. A line number
in front leaves the lexer where a statement begins, so that it still finds the word there. The remark
loses the blanks in front of it and the white space at its end: the end is trimmed before the line is
split up and again behind it, and there is nothing left to trim by then.

Results:
1. `isRemarkOf_iff`: the one remark that a text is.
2. `Front.of_digits`: a line number with a space behind it stands in front of its statement.
3. `Statement.ofTokens_rem`: what is read behind `REM`.
4. `verbatim_ofText`: a numbered line that says `REM` is its remark.
-/

namespace LineBasic

/-! ## 1. Texts as remarks -/

/-- A remark is all of a text but the blanks in front of it and the white space at its end. -/
structure IsRemarkOf (text remark : String) : Prop where
  whole : ∃ before behind, text.toList = before ++ (remark.toList ++ behind) ∧
    (∀ c ∈ before, Text.isBlank c = true) ∧ ∀ c ∈ behind, Text.isSpace c = true
  isRemark : IsRemark remark

/-- Every text is one remark. -/
theorem isRemarkOf_iff {text remark : String} :
    IsRemarkOf text remark ↔
      remark.toList = (Text.trimEnd text.toList).dropWhile Text.isBlank := by
  constructor
  · rintro ⟨⟨before, behind, whole, blanks, spaces⟩, first, last⟩
    rw [whole]
    by_cases none : remark.toList = []
    · -- Nothing but white space is left, in front or behind.
      have all : Text.trimEnd (before ++ ([] ++ behind)) = [] :=
        Text.trimEnd_eq_nil <| List.all_eq_true.2 fun c mem => (List.mem_append.1 mem).elim
          (fun inFront => Text.isSpace_of_isBlank (blanks c inFront)) (spaces c)
      rw [none, all]
      rfl
    · have stays : Text.trimEnd (before ++ remark.toList) = before ++ remark.toList :=
        Text.dropTrailing_eq_self_iff.2 fun c final =>
          last c (by rwa [List.getLast?_append_of_ne_nil _ none] at final)
      have kept : Text.trimEnd ((before ++ remark.toList) ++ behind) = before ++ remark.toList := by
        rw [Text.trimEnd, Text.dropTrailing_append (.inl stays)]
        have gone := Text.trimEnd_eq_nil (List.all_eq_true.2 spaces)
        rw [Text.trimEnd] at gone
        rw [gone, List.append_nil]
      rw [← List.append_assoc, kept, Text.dropWhile_append blanks first]
  · intro left
    obtain ⟨behind, whole, spaces⟩ := Text.exists_trailing Text.isSpace text.toList
    refine ⟨⟨(Text.trimEnd text.toList).takeWhile Text.isBlank, behind, ?_,
      fun c mem => List.mem_takeWhile_imp mem, spaces⟩, ?_, ?_⟩
    · rw [left, ← List.append_assoc, List.takeWhile_append_dropWhile]
      exact whole
    · rw [left]
      exact Token.CutLemmas.stops_dropWhile _ _
    · rw [left]
      exact (Text.clean_trimEnd _).of_suffix (List.dropWhile_suffix _)

/-- A text whose last character is no white space is not touched when the end behind it is
trimmed. -/
theorem Text.EndsVisibly.trimEnd_append {front : String} (visible : EndsVisibly front)
    (cs : List Char) : trimEnd (front.toList ++ cs) = front.toList ++ trimEnd cs := by
  obtain ⟨others, c, shape, visible⟩ := visible
  refine dropTrailing_append (.inl (dropTrailing_eq_self_iff.2 fun d last => ?_))
  rw [shape, List.getLast?_concat] at last
  exact Option.some.inj last ▸ visible

/-! ## 2. A line number in front -/

open Token

variable {n : LineNumber} {digits word x : String} {rest : List Char}

/-- Digits with a space behind them stand in front of what follows. -/
theorem Line.Front.of_digits (numbers : (Token.number digits).Numbers n)
    (clean : Text.Clean (digits.toList ++ ' ' :: rest)) (stop : Stops Text.isBlank rest) :
    Line.Front (digits.toList ++ ' ' :: rest) digits rest := by
  obtain ⟨_, same, full, all, _⟩ := numbers
  obtain rfl := Token.number.inj same
  have cut := cut_digits all (mt String.toList_eq_nil_iff.1 full)
    (show Place.opening ≠ .remark by decide) (Text.apart_cons (c := ' ') (by decide) rest)
  rw [String.ofList_toList] at cut
  exact ⟨⟨[], _, (ofText_ofList clean).trans cut.scan_eq, nofun⟩,
    ⟨[], [' '], rfl, nofun, List.forall_mem_singleton.2 rfl⟩, stop⟩

/-! ## 3. What is read behind `REM` -/

/-- What is read from a text that says `REM` first: the rest of it, without the blanks in front. -/
theorem Statement.ofTokens_rem {remark : String} (rem : Text.sameWord word "REM" = true)
    (clean : Text.Clean (word.toList ++ rest)) (stop : Stops Char.isAlphanum rest)
    (left : remark.toList = rest.dropWhile Text.isBlank) (line : Option LineNumber) :
    ofTokens line (Token.ofText (String.ofList (word.toList ++ rest))) = .ok (.remark remark) := by
  refine ofTokens_eq_ok_iff.2 ?_
  have words : solid (Token.ofText (String.ofList (word.toList ++ rest))) =
      .word word :: if remark = "" then [] else [.remark remark] := by
    rw [ofText_ofList clean]
    exact wordsAt_rem rem stop left
  rw [words]
  exact derives_remark rem remark

/-! ## 4. Lines -/

namespace Line

/-- A line with a number that says `REM` is one remark: all that stands behind the word, but the
blanks in front of it and the white space at its end. -/
theorem verbatim_ofText (numbers : (Token.number digits).Numbers n)
    (rem : Text.sameWord word "REM" = true)
    (apart : ∀ c, x.toList.head? = some c → c.isAlphanum = false)
    (short : (Text.trimEnd (digits ++ " " ++ word ++ x).toList).length ≤ maxLength) :
    ∃ line remark, ofText (digits ++ " " ++ word ++ x) = .ok line ∧ line.number = some n ∧
      line.isEmpty = false ∧ line.statement = .ok (.remark remark) ∧
      ∀ y, IsRemarkOf x y ↔ y = remark := by
  have isName := isName_of_sameWord rem (by decide) (by decide)
  -- The end is trimmed no further than up to `REM`.
  have trimmed : Text.trimEnd (digits ++ " " ++ word ++ x).toList =
      digits.toList ++ ' ' :: (word.toList ++ Text.trimEnd x.toList) := by
    rw [String.toList_append, (isName.endsVisibly.append _).trimEnd_append]
    simp
  have clean := Text.clean_trimEnd (digits ++ " " ++ word ++ x).toList
  rw [trimmed] at clean
  have cleanRest : Text.Clean (word.toList ++ Text.trimEnd x.toList) :=
    clean.of_suffix ⟨digits.toList ++ [' '], by simp⟩
  have visible : Stops Text.isBlank (word.toList ++ Text.trimEnd x.toList) := by
    obtain ⟨c, cs, shape, alpha, _⟩ := isName
    rw [shape]
    exact fun d first => Option.some.inj first ▸ CutLemmas.visible_of_isAlpha alpha
  have stop : Stops Char.isAlphanum (Text.trimEnd x.toList) :=
    Stops.of_prefix apart Text.isPrefix_dropTrailing
  have front := Front.of_digits numbers clean visible
  rw [← trimmed] at front
  have split := ofText_of_front short front
  rw [Token.lineNumber_eq_ok_iff.2 numbers] at split
  refine ⟨_, String.ofList ((Text.trimEnd x.toList).dropWhile Text.isBlank), split, rfl, ?_, ?_,
    fun y => ?_⟩
  · refine Bool.eq_false_iff.2 fun empty => ?_
    have nothing := (MadeOf.of_clean cleanRest (some n) _).isEmpty.1 empty
    obtain ⟨c, cs, shape, _⟩ := isName
    rw [shape] at nothing
    cases nothing
  · exact Statement.ofTokens_rem rem cleanRest stop String.toList_ofList _
  · rw [isRemarkOf_iff, ← String.toList_inj, String.toList_ofList]

/-- Quotes, parentheses, keywords and line feeds are kept, and so are tabs but for those in front and
at the end. -/
theorem verbatim_ofText_quote :
    ∃ line, ofText ("010" ++ " " ++ "Rem" ++ "\t\"(a\t= 1\nREM GOTO  20 \t") = .ok line ∧
      line.number = some 10 ∧ line.isEmpty = false ∧
      line.statement = .ok (.remark "\"(a\t= 1\nREM GOTO  20") := by
  have numbers : (Token.number "010").Numbers 10 :=
    Token.lineNumber_eq_ok_iff.1 (by decide +kernel)
  have rem : Text.sameWord "Rem" "REM" = true := by decide
  have apart : ∀ c, "\t\"(a\t= 1\nREM GOTO  20 \t".toList.head? = some c →
      c.isAlphanum = false := fun c first => Option.some.inj first ▸ rfl
  have short : (Text.trimEnd ("010" ++ " " ++ "Rem" ++
      "\t\"(a\t= 1\nREM GOTO  20 \t").toList).length ≤ maxLength := by decide +kernel
  obtain ⟨line, remark, known, number, full, read, unique⟩ :=
    verbatim_ofText numbers rem apart short
  have kept : IsRemarkOf "\t\"(a\t= 1\nREM GOTO  20 \t" "\"(a\t= 1\nREM GOTO  20" :=
    isRemarkOf_iff.2 (by decide +kernel)
  rw [← (unique _).1 kept] at read
  exact ⟨line, known, number, full, read⟩

end Line

end LineBasic
