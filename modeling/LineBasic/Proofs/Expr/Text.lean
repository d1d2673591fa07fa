import LineBasic.Proofs.Statement.WellFormed

/-!
# Written expressions

A well-formed expression is written as words that its text is cut into again, whatever follows it
that does not go on with its last word. With all its parentheses it is a primary of the grammar,
and it stands for the same expression but for its constants: what is read of a constant is the six
digits that are written of it.

Results:
1. `wordsAt_text`: the text of an expression is cut into its words.
2. `derives_words`: the words stand for the expression with its constants written and read.
-/

namespace LineBasic

/-- The last character of a text is no white space. -/
def Text.EndsVisibly (s : String) : Prop :=
  ∃ front c, s.toList = front ++ [c] ∧ isSpace c = false

theorem Text.EndsVisibly.append {b : String} (h : EndsVisibly b) (a : String) :
    EndsVisibly (a ++ b) := by
  obtain ⟨front, c, shape, visible⟩ := h
  exact ⟨a.toList ++ front, c, by simp [shape], visible⟩

theorem Text.endsVisibly_of_forall {s : String} (visible : ∀ c ∈ s.toList, isSpace c = false)
    (full : s.toList ≠ []) : EndsVisibly s := by
  rcases List.eq_nil_or_concat' s.toList with none | ⟨front, c, shape⟩
  · exact absurd none full
  · exact ⟨front, c, shape, visible c (shape ▸ List.mem_concat_self)⟩

theorem IsName.endsVisibly {name : String} (isName : IsName name) : Text.EndsVisibly name := by
  refine Text.endsVisibly_of_forall
    (fun c mem => Text.isSpace_of_isAlphanum (isName.isAlphanum c mem)) ?_
  obtain ⟨c, cs, shape, _⟩ := isName
  rw [shape]
  exact List.cons_ne_nil c cs

namespace Expr

/-- With every constant replaced by what `f` makes of it, if it makes something of all of them. -/
def mapConstants? (f : Number → Option Number) : Expr → Option Expr
  | constant value => (f value).map constant
  | var name => some (var name)
  | arith op left right => do
    return arith op (← left.mapConstants? f) (← right.mapConstants? f)
  | assign target value => do
    return assign (← target.mapConstants? f) (← value.mapConstants? f)

/-- The words of two operands with an operator between them, in parentheses. -/
def joinedWords (left : List Token) (op : Operator) (right : List Token) : List Token :=
  .leftParen :: ((left ++ .operator op :: right) ++ [.rightParen])

/-- The words that an expression is written with. -/
def words : Expr → List Token
  | constant value => [.number value.format]
  | var name => [.word name]
  | arith op left right => joinedWords left.words op.operator right.words
  | assign target value => joinedWords target.words .equal value.words

variable {e : Expr} {rest : List Char}

/-! ## 1. The words of a written expression -/

namespace TextLemmas

open Token Text

theorem toList_joined (left : String) (op : Operator) (right : String) :
    (joined left op right).toList ++ rest =
      '(' :: (left.toList ++ ' ' :: op.symbol :: ' ' :: (right.toList ++ ')' :: rest)) := by
  simp [joined]

theorem wordsAt_joined {left right : String} {op : Operator} {u v : List Token}
    (ihLeft : ∀ rest, Apart rest →
      wordsAt .inside (left.toList ++ rest) = u ++ wordsAt .inside rest)
    (ihRight : ∀ rest, Apart rest →
      wordsAt .inside (right.toList ++ rest) = v ++ wordsAt .inside rest) :
    wordsAt .inside ((joined left op right).toList ++ rest) =
      joinedWords u op v ++ wordsAt .inside rest := by
  have symbol : ofChar? op.symbol = some (.operator op) := by cases op <;> decide
  rw [toList_joined, wordsAt_symbol (t := .leftParen) rfl (by decide),
    ihLeft _ (apart_cons (by decide) _), wordsAt_blank rfl, wordsAt_symbol symbol (by decide),
    wordsAt_blank rfl, ihRight _ (apart_cons (by decide) _),
    wordsAt_symbol (t := .rightParen) rfl (by decide)]
  simp [joinedWords]

end TextLemmas

open TextLemmas

/-- The text of an expression is cut into its words. -/
theorem wordsAt_text (wellFormed : e.WellFormed) (apart : Text.Apart rest) :
    Token.wordsAt .inside (e.text.toList ++ rest) = e.words ++ Token.wordsAt .inside rest := by
  induction e generalizing rest with
  | constant value =>
    obtain ⟨n, text, numeral, whole, _⟩ := Number.format_eq wellFormed.1 wellFormed.2
    have holds : n.digits ≠ [] := List.append_ne_nil_of_left_ne_nil whole _
    rw [Expr.text, text, String.toList_ofList, Token.wordsAt_numeral numeral holds (by decide) apart,
      words, text]
    rfl
  | var name =>
    rw [Expr.text, Token.wordsAt_name wellFormed (by decide) apart]
    rfl
  | arith op left right ihLeft ihRight =>
    exact wordsAt_joined (fun _ => ihLeft wellFormed.1) (fun _ => ihRight wellFormed.2)
  | assign target value ihTarget ihValue =>
    exact wordsAt_joined (fun _ => ihTarget wellFormed.1) (fun _ => ihValue wellFormed.2)

theorem endsVisibly_text (wellFormed : e.WellFormed) : Text.EndsVisibly e.text := by
  cases e with
  | constant value =>
    obtain ⟨n, text, numeral, whole, _⟩ := Number.format_eq wellFormed.1 wellFormed.2
    rw [Expr.text, text]
    refine Text.endsVisibly_of_forall ?_ ?_
    · rw [String.toList_ofList]
      exact fun c => Numeral.isSpace_of_mem_text numeral
    · rw [String.toList_ofList, Numeral.text, List.append_assoc]
      exact List.append_ne_nil_of_left_ne_nil whole _
  | var name => exact IsName.endsVisibly wellFormed
  | arith op left right => exact Text.EndsVisibly.append ⟨[], ')', rfl, by decide⟩ _
  | assign target value => exact Text.EndsVisibly.append ⟨[], ')', rfl, by decide⟩ _

theorem trimRemark_of_mem_words : ∀ t ∈ e.words, t.trimRemark = t := by
  induction e with
  | constant | var => simp [words, Token.trimRemark]
  | arith op left right ihLeft ihRight | assign left right ihLeft ihRight =>
    intro t mem
    simp only [words, joinedWords, List.mem_cons, List.mem_append, List.not_mem_nil, or_false] at mem
    rcases mem with rfl | (mem | rfl | mem) | rfl
    · rfl
    · exact ihLeft t mem
    · rfl
    · exact ihRight t mem
    · rfl

/-! ## 2. What the words stand for -/

namespace TextLemmas

variable {w v : List Token} {left right : Expr}

theorem derives_sum (derived : Derives .primary w e) : Derives .sum w e :=
  .term (.product (.primary derived))

/-- Two primaries with an operator between them make up an assignment. -/
theorem derives_arith (op : ArithOp) (hl : Derives .primary w left) (hr : Derives .primary v right) :
    Derives .assignment (w ++ .operator op.operator :: v) (.arith op left right) := by
  cases op with
  | add => exact .sum (.add (derives_sum hl) (.product (.primary hr)))
  | subtract => exact .sum (.subtract (derives_sum hl) (.product (.primary hr)))
  | multiply => exact .sum (.term (.product (.multiply (.primary hl) (.lone hr))))
  | divide => exact .sum (.term (.product (.divide (.primary hl) (.lone hr))))

end TextLemmas

/-- The words of an expression stand for it, with every constant as it is written and read. -/
theorem derives_words (wellFormed : e.WellFormed) :
    ∃ e', e.mapConstants? (fun value => Number.read value.format) = some e' ∧
      Derives .primary e.words e' := by
  induction e with
  | constant value =>
    obtain ⟨y, read, finite⟩ := Number.read_format wellFormed.1 wellFormed.2
    exact ⟨.constant y, by rw [mapConstants?, read, Option.map_some], .number read finite⟩
  | var name => exact ⟨.var name, rfl, .word⟩
  | arith op left right ihLeft ihRight =>
    obtain ⟨left', mappedLeft, derivedLeft⟩ := ihLeft wellFormed.1
    obtain ⟨right', mappedRight, derivedRight⟩ := ihRight wellFormed.2
    refine ⟨.arith op left' right', ?_, .parens (derives_arith op derivedLeft derivedRight)⟩
    rw [mapConstants?, mappedLeft, mappedRight]
    rfl
  | assign target value ihTarget ihValue =>
    obtain ⟨target', mappedTarget, derivedTarget⟩ := ihTarget wellFormed.1
    obtain ⟨value', mappedValue, derivedValue⟩ := ihValue wellFormed.2
    refine ⟨.assign target' value', ?_,
      .parens (.assign (derives_sum derivedTarget) (.sum (derives_sum derivedValue)))⟩
    rw [mapConstants?, mappedTarget, mappedValue]
    rfl

end Expr

end LineBasic
