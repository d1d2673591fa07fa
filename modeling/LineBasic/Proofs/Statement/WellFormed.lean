import LineBasic.Proofs.Number.Format
import LineBasic.Proofs.Statement.Grammar
import LineBasic.Proofs.Token.Lexer

/-!
# What is read from text is well formed

A statement that is read from the words of a text holds no more than such words can say: constants
are finite and have no sign, names are letters and digits behind a letter, literals hold no quote,
and targets are line numbers.

Results:
1. `Expr.Derives.wellFormed`, `Statement.Derives.wellFormed`: the words of a text make up well-formed
   expressions and statements.
2. `Statement.wellFormed_of_ofText`: so a text does.
-/

namespace LineBasic

/-! ## 1. Expressions -/

namespace Expr

/-- All constants are finite and have no sign, and all variables have names. -/
def WellFormed : Expr → Prop
  | constant value => value.isFinite = true ∧ Double.isNegative value = false
  | var name => IsName name
  | arith _ left right => left.WellFormed ∧ right.WellFormed
  | assign target value => target.WellFormed ∧ value.WellFormed

theorem wellFormed_zero : (constant 0).WellFormed := ⟨by decide, by decide⟩

/-- Words of a text make up well-formed expressions. -/
theorem Derives.wellFormed {phrase : Phrase} {w : List Token} {e : Expr}
    (derived : Derives phrase w e) (lexed : ∀ t ∈ w, t.Lexed) : e.WellFormed := by
  induction derived with
  | sum _ ih | term _ ih | product _ ih | primary _ ih | lone _ ih => exact ih lexed
  | assign _ _ ihLeft ihRight | add _ _ ihLeft ihRight | subtract _ _ ihLeft ihRight
  | multiply _ _ ihLeft ihRight | divide _ _ ihLeft ihRight =>
    exact ⟨ihLeft fun t mem => lexed t (List.mem_append_left _ mem),
      ihRight fun t mem => lexed t (List.mem_append_right _ (List.mem_cons_of_mem _ mem))⟩
  | negateTerm _ ih | negateFactor _ ih =>
    exact ⟨wellFormed_zero, ih fun t mem => lexed t (List.mem_cons_of_mem _ mem)⟩
  | @number numeral value readable finite =>
    obtain ⟨c, cs, shape, first⟩ := lexed _ List.mem_cons_self
    obtain ⟨n, rfl⟩ := Numeral.read_unsigned shape first readable
    exact ⟨finite, n.isNegative_toNumber false⟩
  | word => exact lexed _ List.mem_cons_self
  | parens _ ih =>
    exact ih fun t mem => lexed t (List.mem_cons_of_mem _ (List.mem_append_left _ mem))

end Expr

/-! ## 2. Statements -/

namespace Statement

/-- All that a statement holds can be written down and read again. -/
def WellFormed : Statement → Prop
  | remark text => IsRemark text
  | assign name value => IsName name ∧ value.WellFormed
  | print literal values => (∀ s, literal = some s → '"' ∉ s.toList) ∧
      (∀ e ∈ values, e.WellFormed) ∧ (literal ≠ none ∨ values ≠ [])
  | input name => IsName name
  | jump target => 1 ≤ target ∧ target ≤ LineNumber.max
  | branch left _ right target => left.WellFormed ∧ right.WellFormed ∧
      1 ≤ target ∧ target ≤ LineNumber.max
  | stop => True

theorem DerivesMore.wellFormed {w : List Token} {values : List Expr}
    (derived : DerivesMore w values) (lexed : ∀ t ∈ w, t.Lexed) :
    ∀ e ∈ values, e.WellFormed := by
  induction derived with
  | nil => exact fun e mem => absurd mem List.not_mem_nil
  | cons first _ ih =>
    intro e mem
    rcases List.mem_cons.1 mem with rfl | mem
    · exact first.wellFormed fun t mem =>
        lexed t (List.mem_cons_of_mem _ (List.mem_append_left _ mem))
    · exact ih (fun t mem => lexed t (List.mem_cons_of_mem _ (List.mem_append_right _ mem))) e mem

theorem wellFormed_assign {name : String} {w : List Token} {e : Expr}
    (derived : Expr.Derives .assignment w e)
    (lexed : ∀ t ∈ .word name :: .operator .equal :: w, t.Lexed) :
    (assign name e).WellFormed := by
  have others : ∀ t ∈ w, t.Lexed := fun t mem =>
    lexed t (List.mem_cons_of_mem _ (List.mem_cons_of_mem _ mem))
  exact ⟨lexed (.word name) List.mem_cons_self, derived.wellFormed others⟩

/-- Words of a text make up well-formed statements. What follows `REM` has to be as a text has it. -/
theorem Derives.wellFormed {w : List Token} {statement : Statement}
    (derived : Derives w statement) (lexed : ∀ t ∈ w, t.Lexed)
    (remarks : ∀ word v, w = .word word :: v → Text.sameWord word "REM" = true →
      v = [] ∨ ∃ text, IsRemark text ∧ v = [.remark text]) : statement.WellFormed := by
  cases derived with
  | @remark word v spells =>
    rcases remarks word v rfl spells with rfl | ⟨text, remark, rfl⟩
    · exact ⟨fun _ first => (nomatch first), fun _ last => (nomatch last)⟩
    · have same : remarkText [.remark text] = text := by simp [remarkText, Token.text]
      rw [same]
      exact remark
  | assign _ derived =>
    exact wellFormed_assign derived fun t mem => lexed t (List.mem_cons_of_mem _ mem)
  | implicit _ derived => exact wellFormed_assign derived lexed
  | @printLiteral _ literal v values _ more =>
    have others := fun t (mem : t ∈ v) => lexed t (by simp [mem])
    refine ⟨?_, more.wellFormed others, .inl (Option.some_ne_none _)⟩
    rintro s ⟨⟩
    exact lexed (.string literal) (by simp)
  | @print _ u v e values _ first more =>
    have firsts := fun t (mem : t ∈ u) => lexed t (by simp [mem])
    have others := fun t (mem : t ∈ v) => lexed t (by simp [mem])
    refine ⟨fun s none => (nomatch none), ?_, .inr (List.cons_ne_nil _ _)⟩
    intro e' mem
    rcases List.mem_cons.1 mem with rfl | mem
    · exact first.wellFormed firsts
    · exact more.wellFormed others e' mem
  | @input _ name _ => exact lexed (.word name) (by simp)
  | jump _ number => exact Token.lineNumber_range number
  | @branch _ u v left right op comparison next t target _ derivedLeft _ derivedRight _ number =>
    have lefts := fun t (mem : t ∈ u) => lexed t (by simp [mem])
    have rights := fun t (mem : t ∈ v) => lexed t (by simp [mem])
    exact ⟨derivedLeft.wellFormed lefts, derivedRight.wellFormed rights,
      Token.lineNumber_range number⟩
  | stop => trivial

/-- A statement that is read from a text is well formed. -/
theorem wellFormed_of_ofText {line : Option LineNumber} {s : String} {statement : Statement}
    (read : ofTokens line (Token.ofText s) = .ok statement) : statement.WellFormed :=
  (ofTokens_eq_ok_iff.1 read).wellFormed (fun _ mem => Token.lexed_of_mem_ofText mem)
    fun _ _ shape rem => Token.remark_words shape rem

end Statement

end LineBasic
