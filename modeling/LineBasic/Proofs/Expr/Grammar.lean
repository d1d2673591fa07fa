import LineBasic.Proofs.Expr.Stream

/-!
# The grammar of expressions

The grammar that expressions are written by, one kind of phrase for each level of precedence:

* an assignment is a sum, or a sum, an equals sign and an assignment;
* a sum is a term, or a sum, a plus or minus sign and a term;
* a term is a product, or a minus sign and a term;
* a product is a primary, or a product, a times or division sign and a factor;
* a factor is a primary, or a minus sign and a factor;
* a primary is a numeral, a word, or an assignment in parentheses.

`Derives` says which words make up a phrase and which expression the phrase stands for. It knows
nothing of thresholds and of the order in which tokens are read.

Results:
1. `above_sound`: what is read at a threshold is a phrase of that level, and no operator behind it
   binds tighter than the threshold.
2. `Derives.completes`: a phrase with nothing tighter behind it is read as what it stands for.
3. `ofTokens_iff_derives`: exactly the assignments of the grammar are read, each as the one
   expression that it stands for.
-/

namespace LineBasic

namespace Expr

/-! ## The grammar -/

/-- The kinds of phrases, from the loosest to the tightest. -/
inductive Phrase
  | assignment
  | sum
  | term
  | product
  | factor
  | primary
  deriving DecidableEq, Repr

/-- `Derives phrase w e`: the words `w` make up a phrase that stands for the expression `e`. -/
inductive Derives : Phrase → List Token → Expr → Prop
  | sum {w : List Token} {e : Expr} : Derives .sum w e → Derives .assignment w e
  | assign {w v : List Token} {target value : Expr} :
      Derives .sum w target → Derives .assignment v value →
      Derives .assignment (w ++ .operator .equal :: v) (.assign target value)
  | term {w : List Token} {e : Expr} : Derives .term w e → Derives .sum w e
  | add {w v : List Token} {left right : Expr} :
      Derives .sum w left → Derives .term v right →
      Derives .sum (w ++ .operator .plus :: v) (.arith .add left right)
  | subtract {w v : List Token} {left right : Expr} :
      Derives .sum w left → Derives .term v right →
      Derives .sum (w ++ .operator .minus :: v) (.arith .subtract left right)
  | negateTerm {w : List Token} {e : Expr} :
      Derives .term w e → Derives .term (.operator .minus :: w) (negate e)
  | product {w : List Token} {e : Expr} : Derives .product w e → Derives .term w e
  | multiply {w v : List Token} {left right : Expr} :
      Derives .product w left → Derives .factor v right →
      Derives .product (w ++ .operator .times :: v) (.arith .multiply left right)
  | divide {w v : List Token} {left right : Expr} :
      Derives .product w left → Derives .factor v right →
      Derives .product (w ++ .operator .divide :: v) (.arith .divide left right)
  | primary {w : List Token} {e : Expr} : Derives .primary w e → Derives .product w e
  | negateFactor {w : List Token} {e : Expr} :
      Derives .factor w e → Derives .factor (.operator .minus :: w) (negate e)
  | lone {w : List Token} {e : Expr} : Derives .primary w e → Derives .factor w e
  | number {numeral : String} {value : Number} :
      Number.read numeral = some value → value.isFinite = true →
      Derives .primary [.number numeral] (.constant value)
  | word {name : String} : Derives .primary [.word name] (.var name)
  | parens {w : List Token} {e : Expr} :
      Derives .assignment w e → Derives .primary (.leftParen :: (w ++ [.rightParen])) e

/-! ## Thresholds -/

/-- The phrases that are read at a threshold. -/
def phraseAbove : Nat → Phrase
  | 0 => .assignment
  | 1 => .sum
  | 2 => .term
  | _ => .factor

/-- No operator in front of `rest` binds tighter than a threshold. -/
def Loose (threshold : Nat) : List Token → Prop
  | .operator op :: _ =>
    ∀ connective, Connective.ofOperator? op = some connective → connective.precedence ≤ threshold
  | _ => True

/-- A phrase has been read up to `rest`, in the loop of a threshold. Either it may still be the left
operand of any operator, or it is a sum and no product sign follows, or it is done. -/
def ReadSoFar (threshold : Nat) (w : List Token) (e : Expr) (rest : List Token) : Prop :=
  (threshold ≤ Precedence.additive ∧ Derives .product w e) ∨
  (threshold ≤ Precedence.assignment ∧ Derives .sum w e ∧ Loose Precedence.additive rest) ∨
  (Derives (phraseAbove threshold) w e ∧ Loose threshold rest)

namespace GrammarLemmas

theorem ofNumeral_eq_ok_iff {numeral : String} {e : Expr} :
    ofNumeral numeral = .ok e ↔
      ∃ value, Number.read numeral = some value ∧ value.isFinite = true ∧ e = .constant value := by
  unfold ofNumeral
  cases Number.read numeral with
  | none => simp
  | some value =>
    cases finite : value.isFinite with
    | false => simp [finite]
    | true =>
      simp only [finite, ↓reduceIte, Except.ok.injEq, Option.some.injEq]
      constructor
      · rintro rfl
        exact ⟨value, rfl, finite, rfl⟩
      · rintro ⟨_, rfl, _, rfl⟩
        rfl

theorem precedence_le (connective : Connective) :
    connective.precedence ≤ Precedence.multiplicative := by
  cases connective with
  | assign => decide
  | arith op => cases op <;> decide

theorem ofOperator?_eq_some_cases {op : Operator} {connective : Connective}
    (h : Connective.ofOperator? op = some connective) :
    (op = .equal ∧ connective = .assign) ∨ (op = .plus ∧ connective = .arith .add) ∨
    (op = .minus ∧ connective = .arith .subtract) ∨
    (op = .times ∧ connective = .arith .multiply) ∨
    (op = .divide ∧ connective = .arith .divide) := by
  cases op <;> simp [Connective.ofOperator?, ArithOp.ofOperator?] at h <;> simp [← h]

theorem loose_of_multiplicative_le {threshold : Nat}
    (high : Precedence.multiplicative ≤ threshold) (rest : List Token) : Loose threshold rest := by
  unfold Loose
  split
  · intro connective _
    exact Nat.le_trans (precedence_le connective) high
  · trivial

theorem loose_mono {low high : Nat} {rest : List Token} (loose : Loose low rest)
    (le : low ≤ high) : Loose high rest := by
  unfold Loose at loose ⊢
  split
  · intro connective found
    exact Nat.le_trans (loose connective found) le
  · trivial

/-- The loop of a threshold ends where nothing tighter follows. -/
theorem aboveFrom_of_loose {threshold : Nat} {rest : List Token} (loose : Loose threshold rest)
    (left : Expr) : aboveFrom threshold left rest = .ok (left, rest) := by
  rw [aboveFrom_eq]
  rcases rest with _ | ⟨t, rest⟩
  · rfl
  · cases t with
    | operator op =>
      simp only [Loose] at loose ⊢
      cases found : Connective.ofOperator? op with
      | none => rfl
      | some connective => simp [loose connective found]
    | _ => rfl

/-- The loop of a threshold takes in an operator that binds tighter. -/
theorem aboveFrom_operator {threshold : Nat} {op : Operator} {connective : Connective}
    (found : Connective.ofOperator? op = some connective)
    (tight : threshold < connective.precedence) (left : Expr) (rest : List Token) :
    aboveFrom threshold left (.operator op :: rest) =
      andThen (above connective.rightThreshold rest) fun right =>
        aboveFrom threshold (connective.join left right) := by
  rw [aboveFrom_eq]
  simp [found, Nat.not_le.2 tight]

end GrammarLemmas

open GrammarLemmas

/-! ## 1. What is read is a phrase -/

/-- The invariant of the loop: taking in one more operator leaves a phrase read so far. -/
theorem ReadSoFar.step {threshold : Nat} {w v : List Token} {left right : Expr} {op : Operator}
    {connective : Connective} {tail rest : List Token}
    (sofar : ReadSoFar threshold w left (.operator op :: tail))
    (found : Connective.ofOperator? op = some connective)
    (tight : threshold < connective.precedence)
    (derived : Derives (phraseAbove connective.rightThreshold) v right)
    (loose : Loose connective.rightThreshold rest) :
    ReadSoFar threshold (w ++ .operator op :: v) (connective.join left right) rest := by
  -- A sum or a product on the left; what is done cannot go on.
  have left_sum : threshold ≤ Precedence.assignment → Derives .sum w left := by
    intro low
    rcases sofar with ⟨_, product⟩ | ⟨_, sum, _⟩ | ⟨_, done⟩
    · exact .term (.product product)
    · exact sum
    · exact absurd (done connective found) (Nat.not_le.2 tight)
  have left_product : Precedence.additive < connective.precedence → Derives .product w left := by
    intro high
    rcases sofar with ⟨_, product⟩ | ⟨_, _, done⟩ | ⟨_, done⟩
    · exact product
    · exact absurd (done connective found) (Nat.not_le.2 high)
    · exact absurd (done connective found) (Nat.not_le.2 tight)
  have bound : connective.precedence ≤ 3 := precedence_le connective
  rcases ofOperator?_eq_some_cases found with
    ⟨rfl, rfl⟩ | ⟨rfl, rfl⟩ | ⟨rfl, rfl⟩ | ⟨rfl, rfl⟩ | ⟨rfl, rfl⟩
  · have zero : threshold = 0 := Nat.lt_one_iff.1 tight
    subst zero
    exact .inr (.inr ⟨.assign (left_sum (by decide)) derived, loose⟩)
  · have low : threshold ≤ 1 := Nat.le_of_lt_succ tight
    exact .inr (.inl ⟨low, .add (left_sum low) derived, loose⟩)
  · have low : threshold ≤ 1 := Nat.le_of_lt_succ tight
    exact .inr (.inl ⟨low, .subtract (left_sum low) derived, loose⟩)
  · exact .inl ⟨Nat.le_of_lt_succ tight, .multiply (left_product (by decide)) derived⟩
  · exact .inl ⟨Nat.le_of_lt_succ tight, .divide (left_product (by decide)) derived⟩

/-- When the loop ends, what was read is a phrase of its level. -/
theorem ReadSoFar.derives {threshold : Nat} {w : List Token} {e : Expr} {rest : List Token}
    (sofar : ReadSoFar threshold w e rest) : Derives (phraseAbove threshold) w e := by
  rcases sofar with ⟨low, product⟩ | ⟨low, sum, _⟩ | ⟨done, _⟩
  · have term : Derives .term w e := .product product
    match threshold, low with
    | 0, _ => exact .sum (.term term)
    | 1, _ => exact .term term
    | 2, _ => exact term
  · match threshold, low with
    | 0, _ => exact .sum sum
    | 1, _ => exact sum
  · exact done

/-- What is read of some tokens at any threshold is a phrase. -/
def ReadsPhrases (tokens : List Token) : Prop :=
  ∀ threshold e rest, above threshold tokens = .ok (e, rest) →
    ∃ w, tokens = w ++ rest ∧ Derives (phraseAbove threshold) w e ∧ Loose threshold rest

namespace GrammarLemmas

theorem aboveFrom_sound {bound : Nat}
    (shorter : ∀ tokens : List Token, tokens.length < bound → ReadsPhrases tokens)
    {threshold : Nat} {tokens rest u : List Token} {left e : Expr}
    (small : tokens.length ≤ bound) (sofar : ReadSoFar threshold u left tokens)
    (read : aboveFrom threshold left tokens = .ok (e, rest)) :
    ∃ w, tokens = w ++ rest ∧ Derives (phraseAbove threshold) (u ++ w) e ∧
      Loose threshold rest := by
  by_cases loose : Loose threshold tokens
  · rw [aboveFrom_of_loose loose] at read
    cases read
    exact ⟨[], rfl, by simpa using sofar.derives, loose⟩
  -- Something tighter follows, so the loop goes on behind one more operator.
  match tokens with
  | [] => exact absurd trivial loose
  | .operator op :: tail =>
    simp only [Loose, Classical.not_forall, Nat.not_le] at loose
    obtain ⟨connective, found, tight⟩ := loose
    rw [aboveFrom_operator found tight] at read
    obtain ⟨right, rest', readRight, readOn⟩ := andThen_eq_ok read
    have fewer := length_lt_of_above readRight
    simp only [List.length_cons] at small
    obtain ⟨v, tail_eq, derived, looseRight⟩ :=
      shorter tail (by omega) _ _ _ readRight
    obtain ⟨w, rest_eq, whole, done⟩ := aboveFrom_sound shorter (by omega)
      (sofar.step found tight derived looseRight) readOn
    refine ⟨.operator op :: (v ++ w), ?_, ?_, done⟩
    · simp [tail_eq, rest_eq]
    · simpa using whole
  | .unknown _ :: _ | .blank _ :: _ | .word _ :: _ | .number _ :: _ | .string _ :: _
  | .remark _ :: _ | .leftParen :: _ | .rightParen :: _ | .comma :: _ => exact absurd trivial loose
termination_by tokens.length
decreasing_by simp only [List.length_cons]; omega

theorem operand_sound {bound : Nat}
    (shorter : ∀ tokens : List Token, tokens.length < bound → ReadsPhrases tokens)
    {threshold : Nat} {tokens rest : List Token} {e : Expr} (small : tokens.length ≤ bound)
    (read : operand threshold tokens = .ok (e, rest)) :
    ∃ w, tokens = w ++ rest ∧ ReadSoFar threshold w e rest := by
  have of_primary {w : List Token} (primary : Derives .primary w e) :
      ReadSoFar threshold w e rest := by
    rcases Nat.lt_or_ge Precedence.additive threshold with high | low
    · have loose := loose_of_multiplicative_le high rest
      obtain ⟨n, rfl⟩ := Nat.exists_eq_add_of_le' high
      exact .inr (.inr ⟨.lone primary, loose⟩)
    · exact .inl ⟨low, .primary primary⟩
  rw [operand_eq] at read
  split at read
  next numeral tail =>
    split at read
    next value known =>
      cases read
      obtain ⟨number, readable, finite, rfl⟩ := ofNumeral_eq_ok_iff.1 known
      exact ⟨[.number numeral], rfl, of_primary (.number readable finite)⟩
    next => cases read
  next name tail =>
    cases read
    exact ⟨[.word name], rfl, of_primary .word⟩
  next tail =>
    obtain ⟨inner, rest', readInner, done⟩ := andThen_eq_ok read
    cases done
    obtain ⟨w, tail_eq, derived, loose⟩ := shorter tail small _ _ _ readInner
    refine ⟨.operator .minus :: w, by rw [tail_eq]; rfl, ?_⟩
    rcases Nat.lt_or_ge Precedence.additive threshold with high | low
    · rw [Nat.max_eq_left (Nat.le_of_lt high)] at derived loose
      obtain ⟨n, rfl⟩ := Nat.exists_eq_add_of_le' high
      exact .inr (.inr ⟨.negateFactor derived, loose⟩)
    · rw [Nat.max_eq_right low] at derived loose
      rcases Nat.lt_or_ge Precedence.assignment threshold with high' | low'
      · have two : threshold = 2 := Nat.le_antisymm low high'
        subst two
        exact .inr (.inr ⟨.negateTerm derived, loose⟩)
      · exact .inr (.inl ⟨low', .term (.negateTerm derived), loose⟩)
  next tail =>
    obtain ⟨inner, rest', readInner, close⟩ := andThen_eq_ok read
    obtain ⟨rfl, rfl⟩ := closing_eq_ok_iff.1 close
    obtain ⟨w, tail_eq, derived, _⟩ := shorter tail small _ _ _ readInner
    exact ⟨.leftParen :: (w ++ [.rightParen]), by simp [tail_eq], of_primary (.parens derived)⟩
  next => cases read
  next => cases read

end GrammarLemmas

/-- What is read at a threshold is a phrase of that level, and no operator that binds tighter is
left behind it. -/
theorem above_sound (tokens : List Token) : ReadsPhrases tokens := by
  induction tokens using (measure List.length).wf.induction with
  | h tokens shorter =>
    intro threshold e rest read
    rw [above_eq] at read
    obtain ⟨left, rest', readLeft, readOn⟩ := andThen_eq_ok read
    obtain ⟨u, rfl, sofar⟩ := operand_sound shorter (Nat.le_refl _) readLeft
    obtain ⟨w, rfl, derived, loose⟩ :=
      aboveFrom_sound shorter (by simp) sofar readOn
    exact ⟨u ++ w, by simp, derived, loose⟩

/-! ## 2. Phrases are read as what they stand for -/

/-- How a phrase is read when it stands in front of other tokens. A phrase that operators can still
be added to on the right leads into the loop of the threshold. -/
def Completes : Phrase → List Token → Expr → Prop
  | .assignment, w, e =>
    ∀ rest, Loose 0 rest → above 0 (w ++ rest) = .ok (e, rest)
  | .sum, w, e => ∀ threshold ≤ Precedence.assignment, ∀ rest, Loose Precedence.additive rest →
      above threshold (w ++ rest) = aboveFrom threshold e rest
  | .term, w, e => ∀ threshold ≤ Precedence.additive, ∀ rest, Loose Precedence.additive rest →
      above threshold (w ++ rest) = aboveFrom threshold e rest
  | .product, w, e => ∀ threshold ≤ Precedence.additive, ∀ rest,
      above threshold (w ++ rest) = aboveFrom threshold e rest
  | .factor, w, e => ∀ rest, above Precedence.multiplicative (w ++ rest) = .ok (e, rest)
  | .primary, w, e => ∀ threshold rest, operand threshold (w ++ rest) = .ok (e, rest)

namespace GrammarLemmas

/-- A sum goes on behind a plus or minus sign with one term. -/
theorem completes_additive {op : Operator} {arith : ArithOp} {w v : List Token}
    {left right : Expr} (found : Connective.ofOperator? op = some (.arith arith))
    (additive : (Connective.arith arith).precedence = Precedence.additive)
    (ihLeft : Completes .sum w left) (ihRight : Completes .term v right) :
    Completes .sum (w ++ .operator op :: v) (.arith arith left right) := by
  intro threshold low rest loose
  have next : Loose Precedence.additive (.operator op :: (v ++ rest)) := by
    intro connective found'
    rw [found] at found'
    cases found'
    exact Nat.le_of_eq additive
  have rightThreshold : (Connective.arith arith).rightThreshold = Precedence.additive := additive
  rw [List.append_assoc, List.cons_append, ihLeft threshold low _ next,
    aboveFrom_operator found (additive ▸ Nat.lt_succ_of_le low), rightThreshold,
    ihRight Precedence.additive (Nat.le_refl _) rest loose, aboveFrom_of_loose loose]
  rfl

/-- A product goes on behind a times or division sign with one factor. -/
theorem completes_multiplicative {op : Operator} {arith : ArithOp} {w v : List Token}
    {left right : Expr} (found : Connective.ofOperator? op = some (.arith arith))
    (multiplicative : (Connective.arith arith).precedence = Precedence.multiplicative)
    (ihLeft : Completes .product w left) (ihRight : Completes .factor v right) :
    Completes .product (w ++ .operator op :: v) (.arith arith left right) := by
  intro threshold low rest
  have rightThreshold : (Connective.arith arith).rightThreshold = Precedence.multiplicative :=
    multiplicative
  rw [List.append_assoc, List.cons_append, ihLeft threshold low,
    aboveFrom_operator found (multiplicative ▸ Nat.lt_succ_of_le low), rightThreshold, ihRight rest]
  rfl

end GrammarLemmas

/-- Phrases are read as what they stand for. -/
theorem Derives.completes {phrase : Phrase} {w : List Token} {e : Expr}
    (derived : Derives phrase w e) : Completes phrase w e := by
  induction derived with
  | sum _ ih =>
    intro rest loose
    rw [ih 0 (by decide) rest (loose_mono loose (by decide)), aboveFrom_of_loose loose]
  | @assign w v target value _ _ ihLeft ihRight =>
    intro rest loose
    have next : Loose Precedence.additive (.operator .equal :: (v ++ rest)) := by
      intro connective found
      cases found
      decide
    rw [List.append_assoc, List.cons_append, ihLeft 0 (by decide) _ next,
      aboveFrom_operator rfl (by decide)]
    show andThen (above 0 (v ++ rest)) _ = _
    rw [ihRight rest loose]
    exact aboveFrom_of_loose loose _
  | term _ ih => exact fun threshold low => ih threshold (Nat.le_succ_of_le low)
  | add _ _ ihLeft ihRight => exact completes_additive rfl rfl ihLeft ihRight
  | subtract _ _ ihLeft ihRight => exact completes_additive rfl rfl ihLeft ihRight
  | @negateTerm w e _ ih =>
    intro threshold low rest loose
    have read := ih Precedence.additive (Nat.le_refl _) rest loose
    rw [aboveFrom_of_loose loose] at read
    rw [above_eq, List.cons_append, operand_eq]
    simp only [Nat.max_eq_right low, read]
    rfl
  | product _ ih => exact fun threshold low rest _ => ih threshold low rest
  | multiply _ _ ihLeft ihRight => exact completes_multiplicative rfl rfl ihLeft ihRight
  | divide _ _ ihLeft ihRight => exact completes_multiplicative rfl rfl ihLeft ihRight
  | primary _ ih =>
    intro threshold _ rest
    rw [above_eq, ih threshold rest]
    rfl
  | @negateFactor w e _ ih =>
    intro rest
    have read := ih rest
    rw [above_eq, List.cons_append, operand_eq]
    simp only [Nat.max_eq_left (show Precedence.additive ≤ Precedence.multiplicative by decide),
      read]
    exact aboveFrom_of_loose (loose_of_multiplicative_le (Nat.le_refl _) rest) _
  | lone _ ih =>
    intro rest
    rw [above_eq, ih _ rest]
    exact aboveFrom_of_loose (loose_of_multiplicative_le (Nat.le_refl _) rest) _
  | number readable finite =>
    intro threshold rest
    simp [operand_eq, ofNumeral_eq_ok_iff.2 ⟨_, readable, finite, rfl⟩]
  | word =>
    intro threshold rest
    simp [operand_eq]
  | @parens w e _ ih =>
    intro threshold rest
    have read := ih (.rightParen :: rest) trivial
    rw [List.cons_append, List.append_assoc, operand_eq]
    simp only [List.cons_append, List.nil_append, read]
    rfl

/-! ## 3. Reading and the grammar agree -/

/-- An expression up to an equals sign is read in front of anything that does not bind tighter. -/
theorem Derives.read_sum {w rest : List Token} {e : Expr} (derived : Derives .sum w e)
    (loose : Loose Precedence.assignment rest) : Expr.sum (w ++ rest) = .ok (e, rest) := by
  have read := derived.completes Precedence.assignment (Nat.le_refl _) rest
    (loose_mono loose (by decide))
  rw [Expr.sum, read, aboveFrom_of_loose loose]

/-- An expression is read in front of anything that is no operator between operands. -/
theorem Derives.read_assignment {w rest : List Token} {e : Expr} (derived : Derives .assignment w e)
    (loose : Loose 0 rest) : Expr.assignment (w ++ rest) = .ok (e, rest) :=
  derived.completes rest loose

/-- All of some tokens are read as an expression exactly if they are an assignment of the grammar. -/
theorem assignment_eq_ok_iff {w : List Token} {e : Expr} :
    Expr.assignment w = .ok (e, []) ↔ Derives .assignment w e := by
  constructor
  · intro read
    obtain ⟨v, whole, derived, _⟩ := above_sound _ _ _ _ read
    rwa [whole, List.append_nil]
  · intro derived
    have read : Expr.assignment (w ++ []) = .ok (e, []) := derived.read_assignment trivial
    rwa [List.append_nil] at read

/-- Exactly the assignments of the grammar are read, each as the one expression that it stands for;
all other lists of tokens are refused. Blanks have no bearing on it. -/
theorem ofTokens_iff_derives (tokens : List Token) :
    (∀ e, ofTokens tokens = .ok e ↔ Derives .assignment (Token.solid tokens) e) ∧
    ((∃ error, ofTokens tokens = .error error) ↔
      ∀ e, ¬ Derives .assignment (Token.solid tokens) e) ∧
    (∀ e e', Derives .assignment (Token.solid tokens) e →
      Derives .assignment (Token.solid tokens) e' → e = e') := by
  have iff : ∀ e, ofTokens tokens = .ok e ↔ Derives .assignment (Token.solid tokens) e := by
    intro e
    rw [ofTokens_eq_read, Reader.read_eq_ok_iff]
    exact assignment_eq_ok_iff
  refine ⟨iff, ?_, ?_⟩
  · cases outcome : ofTokens tokens with
    | error error => simp [← iff, outcome]
    | ok e =>
      have derived := (iff e).1 outcome
      simp only [reduceCtorEq, exists_false, false_iff, Classical.not_forall]
      exact ⟨e, fun none => none derived⟩
  · intro e e' derived derived'
    have read := (iff e).2 derived
    rw [(iff e').2 derived'] at read
    exact (Except.ok.inj read).symm

end Expr

end LineBasic
