import LineBasic.Proofs.Expr.Reader
import LineBasic.Proofs.Token.Stream

/-!
# Parsing expressions follows reading them without blanks

`Parser.above`, `Parser.aboveFrom` and `Parser.term` take the steps of `Expr.above`, `Expr.aboveFrom`
and `Expr.operand`: where a reader matches the first token of a list, the parser takes it off the
stream, or looks at it and then takes it. By induction on the number of tokens that are left, each
follows the other.

Results:
1. `Parser.above_eq`, `Parser.aboveFrom_eq`, `Parser.term_eq`: one equation for each parser, without
   the proofs about the number of tokens.
2. `Parser.follows_above`: expressions are parsed as they are read.
3. `Expr.ofTokens_eq_read`: the same for all tokens.
-/

namespace LineBasic

namespace Parser

variable {tokens rest : List Token} {threshold bound : Nat}

/-! ## 1. Step by step -/

/-- Takes the closing parenthesis behind an expression. -/
def closing (inner : Expr) : Parser Expr :=
  expect (fun t => if t = .rightParen then .ok inner else .error .unbalanced) .unbalanced

theorem closing_apply (inner : Expr) (s : TokenStream) :
    closing inner s =
      match s.next with
      | (some .rightParen, rest) => .ok (inner, rest)
      | (_, rest) => .error ⟨.unbalanced, rest⟩ := by
  rw [closing, expect, next_bind]
  rcases s.next with ⟨_ | t, rest⟩
  · rfl
  · cases t <;> rfl

theorem above_eq (threshold : Nat) : above threshold = term threshold >>= aboveFrom threshold := by
  funext s
  show forget (readAbove threshold s) =
    Except.bind (forget (readTerm threshold s)) fun out => aboveFrom threshold out.1 out.2
  rw [readAbove]
  rcases readTerm threshold s with failure | ⟨left, rest, fewer⟩
  · rfl
  · simp only [bind, Except.bind, pure, Except.pure, forget, aboveFrom]
    rcases continueAbove threshold left rest with failure | ⟨e, rest'⟩ <;> rfl

theorem aboveFrom_eq (threshold : Nat) (left : Expr) :
    aboveFrom threshold left = peek >>= fun
      | some (.operator op) =>
        match Connective.ofOperator? op with
        | some connective =>
          if connective.precedence ≤ threshold then pure left
          else do
            let _ ← next
            let right ← above connective.rightThreshold
            aboveFrom threshold (connective.join left right)
        | none => pure left
      | _ => pure left := by
  funext s
  rw [peek_bind, aboveFrom, continueAbove.eq_def]
  split
  next op here seen =>
    simp only [seen]
    cases Connective.ofOperator? op with
    | none => rfl
    | some connective =>
      simp only
      split
      · rfl
      · show _ = Except.bind (forget (readAbove connective.rightThreshold here.next.2)) fun out =>
          aboveFrom threshold (connective.join left out.1) out.2
        simp only [bind, Except.bind, pure, Except.pure, forget, aboveFrom]
        rcases readAbove connective.rightThreshold here.next.2 with failure | ⟨right, rest, fewer⟩
        · rfl
        · simp only
          rcases continueAbove threshold (connective.join left right) rest with
            failure | ⟨e, rest'⟩ <;> rfl
  next taken here other seen =>
    simp only [seen]
    rfl

theorem term_eq (threshold : Nat) :
    term threshold = next >>= fun
      | some (.number numeral) =>
        match Expr.ofNumeral numeral with
        | .ok value => pure value
        | .error e => fail e
      | some (.word name) => pure (.var name)
      | some (.operator .minus) => do
        return .negate (← above (max threshold Precedence.additive))
      | some .leftParen => above 0 >>= closing
      | some .rightParen => fail .unbalanced
      | _ => fail (.expected "EXPRESSION") := by
  funext s
  rw [next_bind, term, readTerm.eq_def]
  split
  next numeral here known =>
    simp only [known]
    cases Expr.ofNumeral numeral <;> rfl
  next name here known =>
    simp only [known]
    rfl
  next here known =>
    simp only [known]
    show _ = Except.bind (forget (readAbove (max threshold Precedence.additive) here)) fun out =>
      (pure (Expr.negate out.1) : Parser Expr) out.2
    rcases readAbove (max threshold Precedence.additive) here with failure | ⟨e, rest, fewer⟩ <;>
      rfl
  next here known =>
    simp only [known]
    show _ = Except.bind (forget (readAbove 0 here)) fun out => closing out.1 out.2
    rcases readAbove 0 here with failure | ⟨inner, behind, fewer⟩
    · rfl
    · show forget _ = closing inner behind
      rw [closing_apply]
      simp only [bind, Except.bind, pure, Except.pure]
      split
      next rest closed =>
        simp only [closed]
        rfl
      next rest other closed =>
        simp only [closed]
        rfl
  next here known =>
    simp only [known]
    rfl
  next taken here _ _ _ _ _ known =>
    simp only [known]
    rfl

/-! ## 2. The same steps -/

theorem follows_closing (inner : Expr) (rest : List Token) :
    Follows tokens (closing inner) (Expr.closing inner) rest := by
  refine follows_expect ⟨fun t e failed => ?_, rfl⟩ rest
  split at failed <;> cases failed
  rfl

theorem Follows.andThen {parser : Parser Expr} {reader : Reader Expr} {next : Expr → Parser Expr}
    {next' : Expr → Reader Expr} {s : TokenStream} (first : Follows tokens parser reader rest)
    (second : ∀ e rest', reader rest = .ok (e, rest') → Follows tokens (next e) (next' e) rest')
    (before : TokenStream.Before tokens s rest) :
    Outcome tokens ((parser >>= next) s) (Expr.andThen (reader rest) next') := by
  rw [← Expr.bind_eq_andThen]
  exact first.bind second s before

/-- Terms are parsed as operands are read, if shorter expressions are. -/
theorem follows_term
    (shorter : ∀ threshold (rest : List Token), rest.length < bound →
      Follows tokens (above threshold) (Expr.above threshold) rest)
    (threshold : Nat) (small : rest.length ≤ bound) :
    Follows tokens (term threshold) (Expr.operand threshold) rest := by
  rw [term_eq]
  refine follows_next fun taken s out => ?_
  have place := out.column_eq
  rw [Expr.operand_eq]
  cases out with
  | atEnd => exact .error rfl place
  | @token t _ rest behind =>
    have left := behind.before
    cases t with
    | number numeral =>
      simp only
      cases made : Expr.ofNumeral numeral with
      | ok value => exact .ok value left
      | error e =>
        refine .error ?_ place
        rcases Expr.ofNumeral_error made with rfl | rfl <;> rfl
    | word name => exact .ok _ left
    | operator op =>
      cases op with
      | minus =>
        exact (shorter _ rest small).andThen (fun e rest _ => .pure (Expr.negate e) rest) left
      | _ => exact .error rfl place
    | leftParen =>
      exact (shorter 0 rest small).andThen (fun inner rest _ => follows_closing inner rest) left
    | _ => exact .error rfl place

/-- The operators behind an expression are parsed as they are read, if shorter expressions are. -/
theorem follows_aboveFrom
    (shorter : ∀ threshold (rest : List Token), rest.length < bound →
      Follows tokens (above threshold) (Expr.above threshold) rest)
    (threshold : Nat) (left : Expr) (rest : List Token) (small : rest.length ≤ bound) :
    Follows tokens (aboveFrom threshold left) (Expr.aboveFrom threshold left) rest := by
  induction rest using (measure List.length).wf.induction generalizing left with
  | h rest ih =>
    rw [aboveFrom_eq]
    refine follows_peek fun s before => ?_
    rw [Expr.aboveFrom_eq]
    cases rest with
    | nil => exact .ok left before
    | cons t rest =>
      cases t with
      | operator op =>
        simp only [List.head?_cons]
        cases Connective.ofOperator? op with
        | none => exact .ok left before
        | some connective =>
          simp only
          split
          · exact .ok left before
          · -- The operator that was looked at is taken, and the loop goes on behind the operand.
            rw [next_bind]
            have taken := TokenStream.taken_next before
            generalize s.next = next at taken ⊢
            obtain @⟨_, s, _, behind⟩ := taken
            refine (shorter _ rest small).andThen (fun right rest' read => ?_) behind.before
            have fewer := Nat.lt_succ_of_lt (Expr.length_lt_of_above read)
            exact ih rest' fewer _ (Nat.le_trans (Nat.le_of_lt fewer) small)
      | _ => exact .ok left before

/-- Expressions are parsed as they are read, at any threshold. -/
theorem follows_above (threshold : Nat) (rest : List Token) :
    Follows tokens (above threshold) (Expr.above threshold) rest := by
  induction rest using (measure List.length).wf.induction generalizing threshold with
  | h rest ih =>
    have shorter : ∀ threshold (fewer : List Token), fewer.length < rest.length →
        Follows tokens (above threshold) (Expr.above threshold) fewer :=
      fun threshold fewer less => ih fewer less threshold
    rw [above_eq, Expr.above_eq_bind]
    refine (follows_term shorter threshold (Nat.le_refl _)).bind fun left behind read => ?_
    exact follows_aboveFrom shorter threshold left behind
      (Nat.le_of_lt (Expr.length_lt_of_operand read))

end Parser

namespace Expr

/-- Parsing all of some tokens as an expression is reading them without the blanks. -/
theorem ofTokens_eq_read (tokens : List Token) : ofTokens tokens = assignment.read tokens :=
  Parser.parse_eq_read (Parser.follows_above 0 _)

end Expr

end LineBasic
