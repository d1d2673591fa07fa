import LineBasic.Proofs.Expr.Stream
import LineBasic.Proofs.Statement.Reader

/-!
# Parsing statements follows reading them without blanks

Each parser of a statement takes the steps of its reader. The first word of a statement is taken and,
where it is no keyword, put back; its reader has only looked at it.

Results:
1. `Parser.follows_statementAfter`, `Parser.follows_statement`: statements are parsed as they are read.
2. `Statement.ofTokens_eq_read`: the same for all tokens.
-/

namespace LineBasic

namespace Parser

open Statement (readEquals readAssign readPrint readRemark readComparison readBranch readAfter reader)

variable {tokens rest : List Token}

/-! ## 1. The same steps -/

theorem follows_expression (rest : List Token) :
    Follows tokens expression Expr.assignment rest :=
  follows_above 0 rest

theorem remarkFrom_eq (text : String) (s : TokenStream) :
    remarkFrom text s =
      match s.next with
      | (some t, rest) => remarkFrom ((if text = "" then "" else text ++ " ") ++ t.text) rest
      | (none, rest) => (text, rest) := by
  rw [remarkFrom.eq_def]
  split
  next t rest known => simp only [known]
  next rest known => simp only [known]

/-- All tokens are taken into the text of a remark. -/
theorem remarkFrom_of_before {s : TokenStream} (before : TokenStream.Before tokens s rest)
    (text : String) :
    ∃ behind, TokenStream.Before tokens behind [] ∧ remarkFrom text s =
      (rest.foldl (fun text t => (if text = "" then "" else text ++ " ") ++ t.text) text, behind) := by
  induction rest generalizing s text with
  | nil =>
    rw [remarkFrom_eq]
    have taken := TokenStream.taken_next before
    generalize s.next = next at taken ⊢
    cases taken with
    | atEnd left => exact ⟨_, left, rfl⟩
  | cons t rest ih =>
    rw [remarkFrom_eq]
    have taken := TokenStream.taken_next before
    generalize s.next = next at taken ⊢
    cases taken with
    | token behind => exact ih behind.before _

theorem follows_remark (rest : List Token) : Follows tokens remark readRemark rest := by
  intro s before
  obtain ⟨behind, left, whole⟩ := remarkFrom_of_before before ""
  rw [remark, whole]
  exact .ok _ left

theorem follows_equals (rest : List Token) : Follows tokens equals readEquals rest := by
  refine follows_expect ⟨fun t e failed => ?_, rfl⟩ rest
  split at failed <;> cases failed
  rfl

theorem follows_assign (rest : List Token) : Follows tokens assign readAssign rest :=
  (follows_identifier rest).bind fun _ rest _ => (follows_equals rest).bind fun _ rest _ =>
    (follows_expression rest).bind fun _ rest _ => .pure _ rest

theorem readMore_eq :
    (readMore : Parser (List Expr)) = peek >>= fun
      | some .comma => do
        let _ ← next
        let value ← expression
        return value :: (← readMore)
      | _ => pure [] := by
  funext s
  rw [peek_bind, readMore.eq_def]
  split
  next here seen =>
    simp only [seen]
    show _ = Except.bind (forget (readAbove 0 here.next.2)) fun out =>
      Except.bind (readMore out.2) fun more => .ok (out.1 :: more.1, more.2)
    rcases readAbove 0 here.next.2 with failure | ⟨value, behind, fewer⟩ <;> rfl
  next taken here other seen =>
    simp only [seen]
    rfl

/-- The values behind commas are parsed as they are read, if there is room for as many as there are
tokens. -/
theorem follows_readMore {bound : Nat} (enough : rest.length ≤ bound) :
    Follows tokens readMore (Statement.readMore bound) rest := by
  induction bound generalizing rest with
  | zero =>
    obtain rfl := List.eq_nil_of_length_eq_zero (Nat.le_zero.1 enough)
    rw [readMore_eq]
    exact follows_peek fun s before => .ok [] before
  | succ bound ih =>
    rw [readMore_eq]
    refine follows_peek fun s before => ?_
    rw [Statement.readMore, Reader.peek_bind]
    cases rest with
    | nil => exact .ok [] before
    | cons t rest =>
      cases t with
      | comma =>
        refine follows_taken (fun s left => ?_) before
        refine ((follows_expression rest).bind fun value rest' read => ?_) s left
        have fewer := Expr.length_lt_of_above read
        have room : rest'.length ≤ bound :=
          Nat.le_trans (Nat.le_of_lt fewer) (Nat.le_of_succ_le_succ enough)
        exact (ih room).bind fun more rest _ => .pure (value :: more) rest
      | _ => exact .ok [] before

theorem follows_print (rest : List Token) : Follows tokens print readPrint rest := by
  have values (rest : List Token) (f : List Expr → Statement) :
      Follows tokens (do return f (← readMore))
        (do return f (← Statement.readMore (← get).length)) rest :=
    (follows_readMore (Nat.le_refl _)).bind fun more rest _ => .pure (f more) rest
  have plain : Follows tokens (do
        let value ← expression
        return Statement.print none (value :: (← readMore)))
      (do
        let value ← Expr.assignment
        return Statement.print none (value :: (← Statement.readMore (← get).length))) rest :=
    (follows_expression rest).bind fun value rest _ =>
      values rest fun more => Statement.print none (value :: more)
  refine follows_peek fun s before => ?_
  rw [readPrint, Reader.peek_bind]
  cases rest with
  | nil => exact plain s before
  | cons t rest =>
    cases t with
    | string literal => exact follows_taken (values rest (Statement.print (some literal))) before
    | _ => exact plain s before

theorem follows_comparison (rest : List Token) :
    Follows tokens comparison readComparison rest := by
  refine follows_expect ⟨fun t e failed => ?_, rfl⟩ rest
  unfold Comparison.ofToken at failed
  split at failed
  · split at failed <;> cases failed
    rfl
  · cases failed
    rfl

theorem follows_branch (rest : List Token) : Follows tokens branch readBranch rest :=
  (follows_above _ rest).bind fun _ rest _ => (follows_comparison rest).bind fun _ rest _ =>
    (follows_above _ rest).bind fun _ rest _ => (follows_keyword "THEN" rest).bind fun _ rest _ =>
      (follows_lineNumber rest).bind fun _ rest _ => .pure _ rest

/-- What follows a keyword is parsed as it is read. -/
theorem follows_statementAfter (keyword : Keyword) (rest : List Token) :
    Follows tokens (statementAfter keyword) (readAfter keyword) rest := by
  cases keyword with
  | rem => exact follows_remark rest
  | «let» => exact follows_assign rest
  | print => exact follows_print rest
  | input =>
    exact (follows_identifier rest).bind fun name rest _ => .pure (Statement.input name) rest
  | goto =>
    exact (follows_lineNumber rest).bind fun target rest _ => .pure (Statement.jump target) rest
  | «if» => exact follows_branch rest
  | «end» => exact .pure Statement.stop rest

/-- Statements are parsed as they are read. -/
theorem follows_statement (rest : List Token) : Follows tokens statement reader rest := by
  refine follows_next fun taken s out => ?_
  have place := out.column_eq
  cases out with
  | atEnd => exact .error rfl place
  | @token t _ rest behind =>
    cases t with
    | word word =>
      rw [Statement.reader_word]
      simp only
      cases Keyword.ofWord? word with
      | some keyword => exact follows_statementAfter keyword rest s behind.before
      | none => exact follows_assign _ _ behind.save
    | _ => exact .error rfl place

end Parser

/-! ## 2. All tokens -/

namespace Statement

/-- Parsing all of some tokens as a statement is reading them without the blanks. -/
theorem ofTokens_eq_read (line : Option LineNumber) (tokens : List Token) :
    ofTokens line tokens =
      match reader.read tokens with
      | .ok statement => .ok statement
      | .error e => .error (e.atLine line) := by
  rw [← Parser.parse_eq_read (Parser.follows_statement _)]
  rfl

end Statement

end LineBasic
