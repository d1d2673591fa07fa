import LineBasic.Proofs.Expr.Grammar
import LineBasic.Proofs.Token.Attention

/-!
# Reading expressions fails in time

Climbing precedences looks one token ahead to see whether an operator binds tighter than the
threshold, so what may follow an expression is what begins with no such operator (`Loose`). Within
an expression, an operand can complete what has been read, and then a closing parenthesis for each that
is open.

Results:
1. `attentiveAt_operand`, `attentiveAt_aboveFrom`: one operand, and the operators behind it.
2. `attentive_above`: expressions at any threshold.
-/

namespace LineBasic

namespace Expr

variable {threshold bound : Nat} {tokens : List Token}

namespace AttentionLemmas

theorem loose_of_head? {next rest : List Token} (same : next.head? = rest.head?)
    (loose : Loose threshold rest) : Loose threshold next := by
  cases rest with
  | nil =>
    rw [List.head?_nil, List.head?_eq_none_iff] at same
    rw [same]
    trivial
  | cons t rest =>
    obtain ⟨tail, rfl⟩ := List.head?_eq_some_iff.1 same
    cases t <;> exact loose

theorem attentive_closing (ends : List Token → Prop) (inner : Expr) :
    Reader.Attentive (Loose 0) ends (closing inner) := by
  refine Reader.attentive_expect (fun t e rest refused => ?_) (.unbalanced _)
    (t := .rightParen) rfl (if_pos rfl) fun _ => trivial
  split at refused
  · cases refused
  · cases refused
    exact .unbalanced _

theorem above_word (name : String) {next : List Token} (loose : Loose threshold next) :
    above threshold (.word name :: next) = .ok (.var name, next) := by
  rw [above_eq, operand_eq]
  exact GrammarLemmas.aboveFrom_of_loose loose _

/-- The loop of a threshold reads nothing where it may end. -/
theorem joins_aboveFrom {low : Nat} (le : low ≤ threshold) (left : Expr) :
    Reader.Joins (Loose threshold) (Loose low) (aboveFrom low left) where
  can := ⟨[], left, nofun, fun _ loose =>
    ⟨GrammarLemmas.loose_mono loose le, GrammarLemmas.aboveFrom_of_loose loose left⟩⟩
  idle _ _ _ loose := GrammarLemmas.loose_mono loose le

theorem joins_above (threshold : Nat) :
    Reader.Joins (fun _ => True) (Loose threshold) (above threshold) where
  can := ⟨[.word "A"], .var "A", by simp [Token.isBlank], fun _ loose =>
    ⟨trivial, above_word "A" loose⟩⟩
  idle _ _ _ _ := trivial

/-- The threshold on the right of an operator that is taken in is no lower. -/
theorem le_rightThreshold {connective : Connective} (tight : threshold < connective.precedence) :
    threshold ≤ connective.rightThreshold := by
  cases connective with
  | assign => exact Nat.le_of_lt_succ tight
  | arith op => exact Nat.le_of_lt tight

end AttentionLemmas

open AttentionLemmas

/-! ## 1. Operands and operators -/

theorem refusal_of_ofNumeral {numeral : String} {e : Error} (refused : ofNumeral numeral = .error e)
    (rest : List Token) : Refusal e rest := by
  rcases ofNumeral_error refused with rfl | rfl
  · exact .numeralOverflow numeral rest
  · exact .unreadableNumeral rest

/-- A variable can stand where an operand is read. -/
theorem completes_operand (threshold : Nat) :
    Reader.Completes (operand threshold) (Loose (max threshold Precedence.additive)) [] :=
  ⟨[.word "A"], .var "A", by simp [Token.isBlank], fun next _ => by simp [operand_eq]⟩

/-- A token that begins no operand is refused at once, whatever follows. -/
theorem attentiveAt_refused {t : Token} {e : Error} {rest : List Token} {threshold : Nat}
    (refusal : Refusal e (t :: rest))
    (stuck : ∀ rest, operand threshold (t :: rest) = .error ⟨e, t :: rest⟩) :
    Reader.AttentiveAt (Loose (max threshold Precedence.additive)) (operand threshold)
      (t :: rest) := by
  refine .ofFail refusal (fun next first => ?_) (completes_operand threshold)
  obtain ⟨tail, rfl⟩ := List.head?_eq_some_iff.1 first
  exact stuck tail

/-- One operand is read attentively if shorter expressions are. -/
theorem attentiveAt_operand
    (shorter : ∀ threshold (tokens : List Token), tokens.length < bound →
      Reader.AttentiveAt (Loose threshold) (above threshold) tokens)
    (threshold : Nat) (small : tokens.length ≤ bound) :
    Reader.AttentiveAt (Loose (max threshold Precedence.additive)) (operand threshold) tokens := by
  cases tokens with
  | nil =>
    refine .ofFail (.expected "EXPRESSION" []) (fun next first => ?_) (completes_operand threshold)
    rw [List.head?_nil, List.head?_eq_none_iff] at first
    rw [first, operand_eq]
  | cons t rest =>
    have fewer : rest.length < bound := small
    cases t with
    | number numeral =>
      cases known : ofNumeral numeral with
      | ok value =>
        refine .cons (Pure.pure value) (fun rest => ?_) ((Reader.Attentive.pure value).on rest)
        rw [operand_eq]
        simp only [known]
        rfl
      | error e =>
        refine attentiveAt_refused (refusal_of_ofNumeral known _) fun rest => ?_
        rw [operand_eq]
        simp only [known]
    | word name =>
      exact .cons (Pure.pure (var name)) (fun rest => operand_eq _ _)
        ((Reader.Attentive.pure (var name)).on rest)
    | leftParen =>
      refine .cons (above 0 >>= closing) (fun rest => ?_) ?_
      · rw [operand_eq, bind_eq_andThen]
      · exact (shorter 0 rest fewer).bind (fun inner rest _ => (attentive_closing _ inner).on rest)
          fun inner => (attentive_closing _ inner).toJoins
    | rightParen => exact attentiveAt_refused (.unbalanced _) fun rest => operand_eq _ _
    | operator op =>
      cases op with
      | minus =>
        refine .cons (above (max threshold Precedence.additive) >>= fun e =>
          Pure.pure (negate e)) (fun rest => ?_) ?_
        · rw [operand_eq, bind_eq_andThen]
          rfl
        · exact (shorter _ rest fewer).bind
            (fun e rest _ => (Reader.Attentive.pure (negate e)).on rest)
            fun e => (Reader.Attentive.pure (negate e)).toJoins
      | _ => exact attentiveAt_refused (.expected _ _) fun rest => operand_eq _ _
    | _ => exact attentiveAt_refused (.expected _ _) fun rest => operand_eq _ _

/-- The loop of a threshold is attentive if shorter expressions are read so. -/
theorem attentiveAt_aboveFrom
    (shorter : ∀ threshold (tokens : List Token), tokens.length < bound →
      Reader.AttentiveAt (Loose threshold) (above threshold) tokens)
    (threshold : Nat) (left : Expr) (tokens : List Token) (small : tokens.length ≤ bound) :
    Reader.AttentiveAt (Loose threshold) (aboveFrom threshold left) tokens := by
  by_cases loose : Loose threshold tokens
  · refine .ofIdle fun next follows => GrammarLemmas.aboveFrom_of_loose ?_ left
    exact follows.elim (fun same => loose_of_head? same loose) id
  -- Something tighter follows, so the loop goes on behind one more operator.
  match tokens with
  | [] => exact absurd trivial loose
  | .operator op :: rest =>
    simp only [Loose, Classical.not_forall, Nat.not_le] at loose
    obtain ⟨connective, found, tight⟩ := loose
    refine .cons (above connective.rightThreshold >>= fun right =>
      aboveFrom threshold (connective.join left right)) (fun rest => ?_) ?_
    · rw [bind_eq_andThen]
      exact GrammarLemmas.aboveFrom_operator found tight left rest
    · refine (shorter _ rest small).bind (fun right behind read => ?_)
        fun right => joins_aboveFrom (le_rightThreshold tight) _
      have fewer := length_lt_of_above read
      simp only [List.length_cons] at small
      exact attentiveAt_aboveFrom shorter threshold _ behind (by omega)
  | .unknown _ :: _ | .blank _ :: _ | .word _ :: _ | .number _ :: _ | .string _ :: _
  | .remark _ :: _ | .leftParen :: _ | .rightParen :: _ | .comma :: _ => exact absurd trivial loose
termination_by tokens.length
decreasing_by simp only [List.length_cons]; omega

/-! ## 2. Expressions -/

theorem attentiveAt_above (threshold : Nat) (tokens : List Token) :
    Reader.AttentiveAt (Loose threshold) (above threshold) tokens := by
  induction tokens using (measure List.length).wf.induction generalizing threshold with
  | h tokens ih =>
    have shorter : ∀ threshold (fewer : List Token), fewer.length < tokens.length →
        Reader.AttentiveAt (Loose threshold) (above threshold) fewer :=
      fun threshold fewer less => ih fewer less threshold
    rw [above_eq_bind]
    have first := attentiveAt_operand shorter threshold (Nat.le_refl tokens.length)
    refine first.bind (fun left rest read => ?_)
      fun left => joins_aboveFrom (Nat.le_max_left _ _) left
    obtain ⟨taken, split, _⟩ := first.ok left rest read
    refine attentiveAt_aboveFrom shorter threshold left rest ?_
    simp [split]

/-- Expressions are read attentively at any threshold. -/
theorem attentive_above (threshold : Nat) :
    Reader.Attentive (fun _ => True) (Loose threshold) (above threshold) :=
  ⟨joins_above threshold, attentiveAt_above threshold⟩

end Expr

end LineBasic
