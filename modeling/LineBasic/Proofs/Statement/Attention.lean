import LineBasic.Proofs.Expr.Attention
import LineBasic.Proofs.Statement.Grammar

/-!
# Reading statements fails in time

Every reader of a statement looks one token ahead at most, and each can be completed from wherever
it is. So an error in reading a statement is about the first token behind which the statement cannot be
saved, or the statement is only unfinished.

Results:
1. `attentiveAt_reader`: statements are read attentively.
2. `kind_of_ofTokens`: the errors in reading a statement.
3. `rejected_ofTokens`: what an error in reading a statement is about.
-/

namespace LineBasic

namespace Reader

theorem attentive_identifier : Attentive (fun _ => True) (fun _ => True) identifier := by
  refine attentive_expect (fun t e rest refused => ?_) (.expected _ _)
    (t := .word "A") rfl rfl fun _ => trivial
  cases t <;> cases refused <;> exact .expected _ _

theorem attentive_lineNumber : Attentive (fun _ => True) (fun _ => True) lineNumber := by
  exact attentive_expect (fun t e rest refused => .of_lineNumber refused _)
    (.expected _ _) (t := .number "1") rfl rfl fun _ => trivial

theorem attentive_keyword {before : List Token → Prop} (word : String)
    (place : ∀ rest, before (.word word :: rest)) :
    Attentive before (fun _ => True) (keyword word) := by
  have same : (Token.word word).isWord word = true := by simp [Token.isWord, Text.sameWord]
  refine attentive_expect (fun t e rest refused => ?_) (.expected _ _)
    (t := .word word) rfl (if_pos same) place
  split at refused <;> cases refused
  exact .expected _ _

end Reader

namespace Statement

variable {tokens : List Token}

namespace AttentionLemmas

theorem attentive_readEquals :
    Reader.Attentive (fun _ => True) (fun _ => True) readEquals := by
  refine Reader.attentive_expect (fun t e rest refused => ?_) (.missingOperator _)
    (t := .operator .equal) rfl rfl fun _ => trivial
  split at refused <;> cases refused
  exact .illegalOperator t rest

theorem attentive_readComparison :
    Reader.Attentive (Expr.Loose Precedence.assignment) (fun _ => True) readComparison := by
  refine Reader.attentive_expect (fun t e rest refused => ?_) (.missingOperator _)
    (t := .operator .equal) rfl rfl (GrammarLemmas.loose_comparison rfl)
  unfold Comparison.ofToken at refused
  split at refused
  · split at refused <;> cases refused
    exact .illegalOperator _ rest
  · cases refused
    exact .illegalOperator t rest

/-- What may follow the values of `PRINT`. -/
def ListEnds (rest : List Token) : Prop :=
  Expr.Loose 0 rest ∧ rest.head? ≠ some .comma

/-- Reads expressions as long as a comma stands before each. -/
def readList : Reader (List Expr) := fun tokens => readMore tokens.length tokens

theorem readMore_comma (bound : Nat) (tokens : List Token) :
    readMore (bound + 1) (.comma :: tokens) =
      (Expr.assignment >>= fun value => readMore bound >>= fun values =>
        pure (value :: values)) tokens :=
  rfl

/-- A bound that is high enough has no bearing on what is read. -/
theorem readMore_eq {a b : Nat} (enough : tokens.length ≤ a) (enough' : tokens.length ≤ b) :
    readMore a tokens = readMore b tokens := by
  induction a generalizing b tokens with
  | zero =>
    rw [List.eq_nil_of_length_eq_zero (Nat.le_zero.1 enough)]
    cases b <;> rfl
  | succ a ih =>
    cases b with
    | zero =>
      rw [List.eq_nil_of_length_eq_zero (Nat.le_zero.1 enough')]
      rfl
    | succ b =>
      rcases tokens with _ | ⟨t, tail⟩
      · rfl
      · cases t with
        | comma =>
          rw [readMore_comma, readMore_comma]
          refine Reader.bind_congr fun value rest read => ?_
          have fewer := Expr.length_lt_of_above read
          simp only [List.length_cons] at enough enough'
          have same : readMore a rest = readMore b rest := ih (by omega) (by omega)
          show Except.bind (readMore a rest) _ = Except.bind (readMore b rest) _
          rw [same]
        | _ => rfl

theorem readList_comma (tokens : List Token) :
    readList (.comma :: tokens) =
      (Expr.assignment >>= fun value => readList >>= fun values =>
        pure (value :: values)) tokens := by
  rw [readList, List.length_cons, readMore_comma]
  refine Reader.bind_congr fun value rest read => ?_
  have fewer := Expr.length_lt_of_above read
  have same : readMore tokens.length rest = readList rest :=
    readMore_eq (Nat.le_of_lt fewer) (Nat.le_refl _)
  show Except.bind (readMore tokens.length rest) _ = Except.bind (readList rest) _
  rw [same]

theorem readList_of_ne {rest : List Token} (none : rest.head? ≠ some .comma) :
    readList rest = .ok ([], rest) := by
  rcases rest with _ | ⟨t, rest⟩
  · rfl
  · cases t with
    | comma => exact absurd rfl none
    | _ => rfl

/-- Where a list may end nothing more is read. -/
theorem joins_readList {α : Type} (f : List Expr → α) :
    Reader.Joins (Expr.Loose 0) ListEnds (readList >>= fun values => pure (f values)) where
  can := ⟨[], f [], nofun, fun _ follows =>
    ⟨follows.1, Reader.bind_of_ok (readList_of_ne follows.2)⟩⟩
  idle _ _ _ follows := follows.1

theorem attentiveAt_readList (tokens : List Token) :
    Reader.AttentiveAt ListEnds readList tokens := by
  induction tokens using (measure List.length).wf.induction with
  | h tokens ih =>
    by_cases comma : tokens.head? = some .comma
    · obtain ⟨tail, rfl⟩ := List.head?_eq_some_iff.1 comma
      refine .cons _ readList_comma ?_
      refine ((Expr.attentive_above 0).on tail).bind (fun value rest read => ?_)
        fun value => joins_readList _
      have fewer := Expr.length_lt_of_above read
      exact (ih rest (Nat.lt_succ_of_lt fewer)).bind
        (fun values rest _ => (Reader.Attentive.pure (value :: values)).on rest)
        fun values => (Reader.Attentive.pure (value :: values)).toJoins
    · refine .ofIdle fun next follows => readList_of_ne ?_
      rcases follows with same | atEnd
      · rwa [same]
      · exact atEnd.2

theorem attentive_readList {α : Type} (f : List Expr → α) :
    Reader.Attentive (Expr.Loose 0) ListEnds (readList >>= fun values => pure (f values)) :=
  ⟨joins_readList f, fun tokens => (attentiveAt_readList tokens).bind
    (fun values rest _ => (Reader.Attentive.pure (f values)).on rest)
    fun values => (Reader.Attentive.pure (f values)).toJoins⟩

end AttentionLemmas

open AttentionLemmas

/-! ## 1. Statements -/

/-- What follows the variable of an assignment. -/
def readRight (name : String) : Reader Statement :=
  readEquals >>= fun _ => Expr.assignment >>= fun value => pure (assign name value)

theorem attentive_readRight (name : String) :
    Reader.Attentive (fun _ => True) (Expr.Loose 0) (readRight name) :=
  attentive_readEquals.bind fun _ =>
    (Expr.attentive_above 0).bind fun value => .pure (assign name value)

theorem attentive_readAssign : Reader.Attentive (fun _ => True) (Expr.Loose 0) readAssign :=
  Reader.attentive_identifier.bind attentive_readRight

/-- An assignment takes the variable at least. -/
theorem length_lt_of_readAssign {statement : Statement} {rest : List Token}
    (done : readAssign tokens = .ok (statement, rest)) : rest.length < tokens.length := by
  obtain ⟨name, behind, taken, read⟩ := Reader.bind_eq_ok_iff.1 done
  rw [Reader.identifier_eq_ok_iff.1 taken, List.length_cons]
  exact Nat.lt_succ_of_le (((attentive_readRight name).on behind).length_le read)

theorem attentive_readBranch :
    Reader.Attentive (fun _ => True) (fun _ => True) readBranch := by
  exact (Expr.attentive_above Precedence.assignment).bind fun left =>
    attentive_readComparison.bind fun comparison =>
      (Expr.attentive_above Precedence.assignment).bind fun right =>
        (Reader.attentive_keyword "THEN" fun _ => trivial).bind fun _ =>
          Reader.attentive_lineNumber.bind fun target => .pure _

/-- What follows `PRINT` without a literal. -/
def readValues : Reader Statement :=
  Expr.assignment >>= fun value => readList >>= fun values => pure (.print none (value :: values))

theorem attentive_readValues : Reader.Attentive (fun _ => True) ListEnds readValues :=
  (Expr.attentive_above 0).bind fun value => attentive_readList fun values =>
    print none (value :: values)

theorem readPrint_string (literal : String) (tokens : List Token) :
    readPrint (.string literal :: tokens) =
      (readList >>= fun values => pure (.print (some literal) values)) tokens :=
  rfl

theorem attentiveAt_readPrint (tokens : List Token) :
    Reader.AttentiveAt ListEnds readPrint tokens := by
  by_cases literal : ∃ literal, tokens.head? = some (.string literal)
  · obtain ⟨literal, first⟩ := literal
    obtain ⟨tail, rfl⟩ := List.head?_eq_some_iff.1 first
    exact .cons _ (readPrint_string literal) ((attentive_readList (print (some literal))).on tail)
  · refine .ofHead (attentive_readValues.on tokens) (fun next same => ?_) (fun value done => ?_) ?_
    · rcases next with _ | ⟨t, next⟩
      · rfl
      · cases t with
        | string s => exact absurd ⟨s, same.symm⟩ literal
        | _ => rfl
    · -- An expression takes a token at least, and the list behind it gives none back.
      obtain ⟨first, rest, read, others⟩ := Reader.bind_eq_ok_iff.1 done
      have fewer := Expr.length_lt_of_above read
      have noMore := ((attentive_readList _).on rest).length_le others
      exact absurd fewer (Nat.not_lt.2 noMore)
    · refine ⟨[.string ""], .print (some "") [], by simp [Token.isBlank], fun next follows => ?_⟩
      exact (readPrint_string "" next).trans (Reader.bind_of_ok (readList_of_ne follows.2))

/-- What follows a keyword is read attentively. -/
theorem attentiveAt_readAfter (keyword : Keyword) (tokens : List Token) :
    Reader.AttentiveAt (· = []) (readAfter keyword) tokens := by
  cases keyword with
  | rem =>
    -- A remark takes all, so nothing can follow it.
    refine ⟨fun value rest done => ?_, nofun⟩
    cases done
    refine ⟨tokens, (List.append_nil _).symm, fun next follows => ?_⟩
    obtain rfl : next = [] := follows.elim List.head?_eq_none_iff.1 id
    rw [List.append_nil]
    rfl
  | «let» => exact (attentive_readAssign.on tokens).mono fun next atEnd => atEnd ▸ trivial
  | print => exact (attentiveAt_readPrint tokens).mono fun next atEnd => atEnd ▸ ⟨trivial, nofun⟩
  | input =>
    have attentive := Reader.attentive_identifier.bind fun name => .pure (input name)
    exact (attentive.on tokens).mono fun _ _ => trivial
  | goto =>
    have attentive := Reader.attentive_lineNumber.bind fun target => .pure (jump target)
    exact (attentive.on tokens).mono fun _ _ => trivial
  | «if» => exact (attentive_readBranch.on tokens).mono fun _ _ => trivial
  | «end» => exact (Reader.Attentive.pure stop).on tokens

/-- Statements are read attentively. -/
theorem attentiveAt_reader (tokens : List Token) :
    Reader.AttentiveAt (· = []) reader tokens := by
  -- The shortest of all statements can stand in place of any.
  have completes : reader.Completes (· = []) [] := by
    refine ⟨[.word "END"], stop, by simp [Token.isBlank], fun next atEnd => ?_⟩
    subst atEnd
    exact reader_word "END" []
  have fails {t : Token} {rest : List Token}
      (stuck : ∀ rest, reader (t :: rest) = .error ⟨.invalidStatement t.text, t :: rest⟩) :
      Reader.AttentiveAt (· = []) reader (t :: rest) := by
    refine .ofFail (.invalidStatement t rest) (fun next first => ?_) completes
    obtain ⟨tail, rfl⟩ := List.head?_eq_some_iff.1 first
    exact stuck tail
  cases tokens with
  | nil =>
    refine .ofFail (.missingStatement "EXPECTED STATEMENT") (fun next first => ?_) completes
    rw [List.head?_nil, List.head?_eq_none_iff] at first
    rw [first]
    rfl
  | cons t rest =>
    cases t with
    | word word =>
      cases known : Keyword.ofWord? word with
      | some keyword =>
        refine .cons _ (fun rest => ?_) (attentiveAt_readAfter keyword rest)
        rw [reader_word, known]
      | none =>
        have attentive : Reader.AttentiveAt (· = []) readAssign (.word word :: rest) :=
          (attentive_readAssign.on _).mono fun next atEnd => atEnd ▸ trivial
        refine attentive.ofHead (fun next first => ?_) (fun value done => ?_) completes
        · obtain ⟨tail, rfl⟩ := List.head?_eq_some_iff.1 first
          rw [reader_word, known]
        · exact absurd (length_lt_of_readAssign done) (Nat.lt_irrefl _)
    | _ => exact fails fun rest => rfl

/-! ## 2. Errors -/

variable {line : Option LineNumber} {e : Error}

/-- An error of reading, put at the line of the statement. -/
theorem ofTokens_eq_error_iff :
    ofTokens line tokens = .error e ↔
      ∃ raised, reader.read tokens = .error raised ∧ e = raised.atLine line := by
  rw [ofTokens_eq_read]
  cases reader.read tokens <;> simp [eq_comm]

/-- The errors in reading a statement are errors of reading, at the line of the statement. -/
theorem kind_of_ofTokens (failed : ofTokens line tokens = .error e) :
    e.code.kind = .reading ∧ e.line = line := by
  obtain ⟨raised, refused, rfl⟩ := ofTokens_eq_error_iff.1 failed
  exact ⟨(Reader.kind_of_attentive attentiveAt_reader refused).1, rfl⟩

/-- An error in reading a statement is about the first token behind which the statement cannot be
saved, or about its end where it is only unfinished. -/
theorem rejected_ofTokens (failed : ofTokens line tokens = .error e) :
    Rejected (ofTokens line) tokens e := by
  obtain ⟨raised, refused, rfl⟩ := ofTokens_eq_error_iff.1 failed
  have read {tokens : List Token} {statement : Statement}
      (done : reader.read tokens = .ok statement) : ofTokens line tokens = .ok statement := by
    rw [ofTokens_eq_read, done]
  cases Reader.rejected_of_attentive attentiveAt_reader refused with
  | atToken split solid column same viable names =>
    obtain ⟨more, statement, done⟩ := viable
    exact .atToken split solid column
      (fun more => ofTokens_eq_error_iff.2 ⟨raised, same more, rfl⟩) ⟨more, statement, read done⟩ names
  | atEnd column viable =>
    obtain ⟨more, statement, done⟩ := viable
    exact .atEnd column ⟨more, statement, read done⟩

/-- A parenthesis that is not closed where a comparison follows. -/
theorem rejected_ofTokens_comparison :
    let tokens := [Token.word "if", .blank 1, .leftParen, .word "a", .blank 2, .operator .less,
      .number "1"]
    let e : Error := ⟨.syntaxError, some 10, ⟨7, 8⟩, "UNBALANCED PARENTHESES"⟩
    ofTokens (some 10) tokens = .error e ∧ Rejected (ofTokens (some 10)) tokens e := by
  intro tokens e
  have failed : ofTokens (some 10) tokens = .error e := by decide +kernel
  exact ⟨failed, rejected_ofTokens failed⟩

end Statement

end LineBasic
