import LineBasic.Proofs.Expr.Grammar
import LineBasic.Proofs.Statement.Stream

/-!
# The grammar of statements

`Derives` says which words make up a statement, over the grammar of expressions. The first word
tells which statement it is, in upper or lower case; a word that is no keyword begins an assignment
without `LET`. Behind the first word keywords are words like any other.

Results:
1. `Keyword.ofWord?_eq_some_iff`, `Keyword.ofWord?_eq_none_iff`: when a word is a keyword.
2. `reader_eq_ok_iff`: what is read as a statement, with nothing left over, is exactly what the
   grammar derives.
-/

namespace LineBasic

/-! ## Keywords -/

namespace Keyword

/-- A word is a keyword, in upper or lower case. -/
def Spells (word : String) (keyword : Keyword) : Prop :=
  Text.sameWord word keyword.spelling = true

theorem mem_all (keyword : Keyword) : keyword ∈ all := by
  cases keyword <;> decide

/-- No word is two keywords. -/
theorem Spells.unique {word : String} {a b : Keyword} (ha : Spells word a) (hb : Spells word b) :
    a = b := by
  simp only [Spells, Text.sameWord, beq_iff_eq] at ha hb
  have same : a.spelling.toList.map Char.toUpper = b.spelling.toList.map Char.toUpper :=
    ha.symm.trans hb
  cases a <;> cases b <;> first | rfl | exact absurd same (by decide)

theorem ofWord?_eq_some_iff {word : String} {keyword : Keyword} :
    ofWord? word = some keyword ↔ Spells word keyword := by
  constructor
  · intro found
    have spells := List.find?_some found
    exact spells
  · intro spells
    cases found : ofWord? word with
    | none =>
      have none := List.find?_eq_none.1 found keyword (mem_all keyword)
      exact absurd spells none
    | some other =>
      have spellsOther := List.find?_some found
      rw [spells.unique spellsOther]

theorem ofWord?_eq_none_iff {word : String} :
    ofWord? word = none ↔ ∀ keyword, ¬ Spells word keyword := by
  rw [ofWord?, List.find?_eq_none]
  exact ⟨fun none keyword => none keyword (mem_all keyword), fun none keyword _ => none keyword⟩

end Keyword

namespace Statement

/-! ## The grammar -/

/-- `DerivesMore w values`: the words `w` are expressions with a comma before each. -/
inductive DerivesMore : List Token → List Expr → Prop
  | nil : DerivesMore [] []
  | cons {w v : List Token} {e : Expr} {values : List Expr} :
      Expr.Derives .assignment w e → DerivesMore v values →
      DerivesMore (.comma :: (w ++ v)) (e :: values)

/-- `Derives w statement`: the words `w` make up the statement. -/
inductive Derives : List Token → Statement → Prop
  | remark {word : String} {w : List Token} :
      Keyword.Spells word .rem → Derives (.word word :: w) (.remark (remarkText w))
  | assign {word name : String} {w : List Token} {e : Expr} :
      Keyword.Spells word .let → Expr.Derives .assignment w e →
      Derives (.word word :: .word name :: .operator .equal :: w) (.assign name e)
  | implicit {name : String} {w : List Token} {e : Expr} :
      (∀ keyword, ¬ Keyword.Spells name keyword) → Expr.Derives .assignment w e →
      Derives (.word name :: .operator .equal :: w) (.assign name e)
  | printLiteral {word literal : String} {w : List Token} {values : List Expr} :
      Keyword.Spells word .print → DerivesMore w values →
      Derives (.word word :: .string literal :: w) (.print (some literal) values)
  | print {word : String} {w v : List Token} {e : Expr} {values : List Expr} :
      Keyword.Spells word .print → Expr.Derives .assignment w e → DerivesMore v values →
      Derives (.word word :: (w ++ v)) (.print none (e :: values))
  | input {word name : String} :
      Keyword.Spells word .input → Derives [.word word, .word name] (.input name)
  | jump {word : String} {t : Token} {target : LineNumber} :
      Keyword.Spells word .goto → t.lineNumber = .ok target →
      Derives [.word word, t] (.jump target)
  | branch {word : String} {w v : List Token} {left right : Expr} {op : Operator}
      {comparison : Comparison} {next t : Token} {target : LineNumber} :
      Keyword.Spells word .if → Expr.Derives .sum w left →
      Comparison.ofOperator? op = some comparison → Expr.Derives .sum v right →
      next.isWord "THEN" = true → t.lineNumber = .ok target →
      Derives (.word word :: (w ++ .operator op :: (v ++ [next, t])))
        (.branch left comparison right target)
  | stop {word : String} : Keyword.Spells word .end → Derives [.word word] .stop

/-! ## What is read behind the first word -/

namespace GrammarLemmas

theorem readEquals_eq_ok_iff {tokens rest : List Token} {u : Unit} :
    readEquals tokens = .ok (u, rest) ↔ tokens = .operator .equal :: rest := by
  refine Reader.expect_eq_ok_iff.trans ⟨?_, fun split => ⟨_, split, rfl⟩⟩
  rintro ⟨t, rfl, taken⟩
  split at taken
  next same => rw [same]
  next => cases taken

theorem readAssign_eq_ok_iff {tokens : List Token} {statement : Statement} :
    readAssign tokens = .ok (statement, []) ↔
      ∃ name w e, tokens = .word name :: .operator .equal :: w ∧
        Expr.Derives .assignment w e ∧ statement = .assign name e := by
  simp only [readAssign, Reader.bind_eq_ok_iff, Reader.pure_eq_ok_iff,
    Reader.identifier_eq_ok_iff, readEquals_eq_ok_iff]
  constructor
  · rintro ⟨name, _, rfl, _, w, rfl, e, _, read, rfl, rfl⟩
    exact ⟨name, w, e, rfl, Expr.assignment_eq_ok_iff.1 read, rfl⟩
  · rintro ⟨name, w, e, rfl, derived, rfl⟩
    exact ⟨name, _, rfl, (), w, rfl, e, _, Expr.assignment_eq_ok_iff.2 derived, rfl, rfl⟩

theorem DerivesMore.loose {w : List Token} {values : List Expr} (derived : DerivesMore w values) :
    Expr.Loose 0 w := by
  cases derived <;> trivial

theorem readMore_sound {bound : Nat} {tokens : List Token} {values : List Expr}
    (read : readMore bound tokens = .ok (values, [])) : DerivesMore tokens values := by
  induction bound generalizing tokens values with
  | zero =>
    cases read
    exact .nil
  | succ bound ih =>
    rw [readMore, Reader.peek_bind] at read
    rcases tokens with _ | ⟨t, tail⟩
    · cases read
      exact .nil
    · cases t with
      | comma =>
        simp only [List.head?_cons, Reader.bind_eq_ok_iff, Reader.pure_eq_ok_iff] at read
        obtain ⟨_, _, advanced, e, rest, readFirst, others, _, readOthers, rfl, rfl⟩ := read
        cases advanced
        obtain ⟨w, rfl, derived, _⟩ := Expr.above_sound _ _ _ _ readFirst
        exact .cons derived (ih readOthers)
      | _ => cases read

theorem readMore_complete {bound : Nat} {w : List Token} {values : List Expr}
    (derived : DerivesMore w values) (enough : w.length ≤ bound) :
    readMore bound w = .ok (values, []) := by
  induction derived generalizing bound with
  | nil => cases bound <;> rfl
  | @cons w v e values first others ih =>
    cases bound with
    | zero => simp at enough
    | succ bound =>
      have read := first.read_assignment (DerivesMore.loose others)
      have fewer : v.length ≤ bound := by
        simp only [List.length_cons, List.length_append] at enough
        omega
      rw [readMore, Reader.peek_bind]
      simp only [List.head?_cons, Reader.bind_eq_ok_iff, Reader.pure_eq_ok_iff]
      exact ⟨(), _, rfl, e, v, read, values, _, ih fewer, rfl, rfl⟩

theorem assignment_string (literal : String) (tokens : List Token) {out : Expr × List Token} :
    Expr.assignment (.string literal :: tokens) ≠ .ok out := by
  rw [Expr.assignment, Expr.above_eq, Expr.operand_eq]
  simp [Expr.andThen]

theorem readPrint_eq_ok_iff {tokens : List Token} {statement : Statement} :
    readPrint tokens = .ok (statement, []) ↔
      (∃ literal w values, tokens = .string literal :: w ∧ DerivesMore w values ∧
        statement = .print (some literal) values) ∨
      ∃ w v e values, tokens = w ++ v ∧ Expr.Derives .assignment w e ∧ DerivesMore v values ∧
        statement = .print none (e :: values) := by
  have values_iff {rest : List Token} {values : List Expr} :
      readMore rest.length rest = .ok (values, []) ↔ DerivesMore rest values :=
    ⟨readMore_sound, fun derived => readMore_complete derived (Nat.le_refl _)⟩
  rw [readPrint, Reader.peek_bind]
  by_cases literal : ∃ literal w, tokens = .string literal :: w
  · obtain ⟨literal, w, rfl⟩ := literal
    simp only [List.head?_cons, Reader.bind_eq_ok_iff, Reader.pure_eq_ok_iff]
    constructor
    · rintro ⟨_, _, advanced, _, _, got, values, _, read, rfl, rfl⟩
      cases advanced
      cases got
      exact .inl ⟨literal, w, values, rfl, values_iff.1 read, rfl⟩
    · rintro (⟨_, _, values, same, derived, rfl⟩ | ⟨w', v, e, values, same, derived, more, rfl⟩)
      · cases same
        exact ⟨(), w, rfl, w, w, rfl, values, _, values_iff.2 derived, rfl, rfl⟩
      · have read := derived.read_assignment (DerivesMore.loose more)
        rw [← same] at read
        exact absurd read (assignment_string literal w)
  · have plain : (do
          let value ← Expr.assignment
          return .print none (value :: (← readMore (← get).length)) : Reader Statement) tokens =
          .ok (statement, []) ↔ ∃ w v e values, tokens = w ++ v ∧ Expr.Derives .assignment w e ∧
            DerivesMore v values ∧ statement = .print none (e :: values) := by
      simp only [Reader.bind_eq_ok_iff, Reader.pure_eq_ok_iff]
      constructor
      · rintro ⟨e, rest, readFirst, _, _, got, values, _, read, rfl, rfl⟩
        cases got
        obtain ⟨w, rfl, derived, _⟩ := Expr.above_sound _ _ _ _ readFirst
        exact ⟨w, rest, e, values, rfl, derived, values_iff.1 read, rfl⟩
      · rintro ⟨w, v, e, values, rfl, derived, more, rfl⟩
        have read := derived.read_assignment (DerivesMore.loose more)
        exact ⟨e, v, read, v, v, rfl, values, _, values_iff.2 more, rfl, rfl⟩
    have refuse : ¬ ∃ literal w values, tokens = .string literal :: w ∧ DerivesMore w values ∧
        statement = .print (some literal) values := by
      rintro ⟨l, w, _, same, _⟩
      exact literal ⟨l, w, same⟩
    simp only [refuse, false_or]
    rw [← plain]
    rcases tokens with _ | ⟨t, tail⟩
    · rfl
    · cases t with
      | string l => exact absurd ⟨l, tail, rfl⟩ literal
      | _ => rfl

theorem readComparison_eq_ok_iff {tokens rest : List Token} {comparison : Comparison} :
    readComparison tokens = .ok (comparison, rest) ↔
      ∃ op, tokens = .operator op :: rest ∧ Comparison.ofOperator? op = some comparison := by
  refine Reader.expect_eq_ok_iff.trans ⟨?_, ?_⟩
  · rintro ⟨t, rfl, taken⟩
    unfold Comparison.ofToken at taken
    split at taken
    next op =>
      split at taken
      next found =>
        cases taken
        exact ⟨op, rfl, found⟩
      next => cases taken
    next => cases taken
  · rintro ⟨op, rfl, found⟩
    exact ⟨_, rfl, by simp only [Comparison.ofToken, found]⟩

theorem loose_comparison {op : Operator} {comparison : Comparison}
    (found : Comparison.ofOperator? op = some comparison) (rest : List Token) :
    Expr.Loose Precedence.assignment (.operator op :: rest) := by
  intro connective connects
  cases op <;> cases found <;> cases connects
  decide

theorem readBranch_eq_ok_iff {tokens : List Token} {statement : Statement} :
    readBranch tokens = .ok (statement, []) ↔
      ∃ w v left right op comparison next t target,
        tokens = w ++ .operator op :: (v ++ [next, t]) ∧ Expr.Derives .sum w left ∧
        Comparison.ofOperator? op = some comparison ∧ Expr.Derives .sum v right ∧
        next.isWord "THEN" = true ∧ t.lineNumber = .ok target ∧
        statement = .branch left comparison right target := by
  simp only [readBranch, Reader.bind_eq_ok_iff, Reader.pure_eq_ok_iff, readComparison_eq_ok_iff,
    Reader.keyword_eq_ok_iff, Reader.lineNumber_eq_ok_iff]
  constructor
  · rintro ⟨left, _, readLeft, comparison, _, ⟨op, rfl, compares⟩, right, _, readRight, _, _,
      ⟨next, rfl, isThen⟩, target, _, ⟨t, rfl, number⟩, rfl, rfl⟩
    obtain ⟨w, rfl, derivedLeft, _⟩ := Expr.above_sound _ _ _ _ readLeft
    obtain ⟨v, rfl, derivedRight, _⟩ := Expr.above_sound _ _ _ _ readRight
    exact ⟨w, v, left, right, op, comparison, next, t, target, rfl, derivedLeft, compares,
      derivedRight, isThen, number, rfl⟩
  · rintro ⟨w, v, left, right, op, comparison, next, t, target, rfl, derivedLeft, compares,
      derivedRight, isThen, number, rfl⟩
    have looseThen : Expr.Loose Precedence.assignment [next, t] := by
      cases next with
      | word => trivial
      | _ => simp [Token.isWord] at isThen
    exact ⟨left, _, derivedLeft.read_sum (loose_comparison compares _), comparison, _,
      ⟨op, rfl, compares⟩, right, _, derivedRight.read_sum looseThen, (), _, ⟨next, rfl, isThen⟩,
      target, _, ⟨t, rfl, number⟩, rfl, rfl⟩

end GrammarLemmas

open GrammarLemmas

/-! ## Reading and the grammar agree -/

section Keywords

variable {word : String} {keyword : Keyword} {tokens : List Token} {statement : Statement}
  (spells : Keyword.Spells word keyword)

include spells

/-- What is read behind a keyword, with nothing left over, the grammar has there. -/
theorem derives_of_readAfter (read : readAfter keyword tokens = .ok (statement, [])) :
    Derives (.word word :: tokens) statement := by
  cases keyword with
  | rem =>
    cases read
    exact .remark spells
  | «let» =>
    obtain ⟨name, w, e, rfl, derived, rfl⟩ := readAssign_eq_ok_iff.1 read
    exact .assign spells derived
  | print =>
    rcases readPrint_eq_ok_iff.1 read with
      ⟨literal, w, values, rfl, derived, rfl⟩ | ⟨w, v, e, values, rfl, derived, more, rfl⟩
    · exact .printLiteral spells derived
    · exact .print spells derived more
  | input =>
    obtain ⟨name, _, readName, done⟩ := Reader.bind_eq_ok_iff.1 read
    obtain ⟨rfl, rfl⟩ := Reader.pure_eq_ok_iff.1 done
    rw [Reader.identifier_eq_ok_iff.1 readName]
    exact .input spells
  | goto =>
    obtain ⟨target, _, readTarget, done⟩ := Reader.bind_eq_ok_iff.1 read
    obtain ⟨rfl, rfl⟩ := Reader.pure_eq_ok_iff.1 done
    obtain ⟨t, rfl, number⟩ := Reader.lineNumber_eq_ok_iff.1 readTarget
    exact .jump spells number
  | «if» =>
    obtain ⟨w, v, left, right, op, comparison, next, t, target, rfl, derivedLeft, compares,
      derivedRight, isThen, number, rfl⟩ := readBranch_eq_ok_iff.1 read
    exact .branch spells derivedLeft compares derivedRight isThen number
  | «end» =>
    cases read
    exact .stop spells

/-- What the grammar has behind a keyword is read there, with nothing left over. -/
theorem readAfter_of_derives (derived : Derives (.word word :: tokens) statement) :
    readAfter keyword tokens = .ok (statement, []) := by
  have keyword_eq {other : Keyword} (spellsOther : Keyword.Spells word other) : other = keyword :=
    spellsOther.unique spells
  cases derived with
  | remark spells' =>
    cases keyword_eq spells'
    rfl
  | assign spells' derived =>
    cases keyword_eq spells'
    exact readAssign_eq_ok_iff.2 ⟨_, _, _, rfl, derived, rfl⟩
  | implicit none _ => exact absurd spells (none keyword)
  | printLiteral spells' derived =>
    cases keyword_eq spells'
    exact readPrint_eq_ok_iff.2 (.inl ⟨_, _, _, rfl, derived, rfl⟩)
  | print spells' derived more =>
    cases keyword_eq spells'
    exact readPrint_eq_ok_iff.2 (.inr ⟨_, _, _, _, rfl, derived, more, rfl⟩)
  | input spells' =>
    cases keyword_eq spells'
    exact Reader.bind_eq_ok_iff.2 ⟨_, _, Reader.identifier_eq_ok_iff.2 rfl, rfl⟩
  | jump spells' number =>
    cases keyword_eq spells'
    exact Reader.bind_eq_ok_iff.2
      ⟨_, _, Reader.lineNumber_eq_ok_iff.2 ⟨_, rfl, number⟩, rfl⟩
  | branch spells' derivedLeft compares derivedRight isThen number =>
    cases keyword_eq spells'
    exact readBranch_eq_ok_iff.2 ⟨_, _, _, _, _, _, _, _, _, rfl, derivedLeft, compares,
      derivedRight, isThen, number, rfl⟩
  | stop spells' =>
    cases keyword_eq spells'
    rfl

end Keywords

/-- What is read as a statement, with nothing left over, is exactly what the grammar derives. -/
theorem reader_eq_ok_iff {w : List Token} {statement : Statement} :
    reader w = .ok (statement, []) ↔ Derives w statement := by
  rw [reader, Reader.peek_bind]
  rcases w with _ | ⟨t, tail⟩
  · simp only [List.head?_nil, Reader.fail, reduceCtorEq, false_iff]
    intro derived
    cases derived
  · cases t with
    | word word =>
      simp only [List.head?_cons]
      cases found : Keyword.ofWord? word with
      | some keyword =>
        have spells := Keyword.ofWord?_eq_some_iff.1 found
        exact ⟨derives_of_readAfter spells, readAfter_of_derives spells⟩
      | none =>
        have plain := Keyword.ofWord?_eq_none_iff.1 found
        rw [readAssign_eq_ok_iff]
        constructor
        · rintro ⟨name, w, e, same, derived, rfl⟩
          cases same
          exact .implicit plain derived
        · intro derived
          cases derived with
          | implicit _ derived => exact ⟨_, _, _, rfl, derived, rfl⟩
          | remark spells | assign spells | printLiteral spells | print spells | input spells
          | jump spells | branch spells | stop spells => exact absurd spells (plain _)
    | _ =>
      simp only [List.head?_cons, Reader.fail, reduceCtorEq, false_iff]
      intro derived
      cases derived

/-- Exactly the statements of the grammar are read from a list of tokens. -/
theorem ofTokens_eq_ok_iff {line : Option LineNumber} {tokens : List Token}
    {statement : Statement} :
    ofTokens line tokens = .ok statement ↔ Derives (Token.solid tokens) statement := by
  have read_iff : reader.read tokens = .ok statement ↔
      reader (Token.solid tokens) = .ok (statement, []) := Reader.read_eq_ok_iff
  rw [← reader_eq_ok_iff, ← read_iff, ofTokens_eq_read]
  cases reader.read tokens <;> simp

end Statement

end LineBasic
