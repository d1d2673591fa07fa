import LineBasic.Proofs.Statement.Stream

/-!
# Blanks between tokens

Blanks say nothing to a parser, not even where it fails. Tokens that differ in their blanks alone are
parsed as the same statement or expression, or refused with the same error at the same token; only the
columns of this token are others.

On its way a parser passes over the blanks, moves its cursor along and puts tokens back with the columns
they had. It follows a reader that knows of none of this, so that its outcome hangs on the tokens
besides the blanks alone, and its columns on how many of these were left; and as many that are left
are left at the same place.

Results:
1. `Token.respaced_iff`: respaced tokens are those with the same tokens besides the blanks.
2. `Token.SamePlace.spanBeforeEnd`: as many tokens left are left at the same place.
3. `Parser.agree_of_follows`: what parsers make of respaced tokens.
4. `Statement.agree_of_respaced`: statements and expressions from respaced tokens.
-/

namespace LineBasic

namespace Token

variable {tokens tokens' front taken rest : List Token}

/-! ## 1. Respaced tokens -/

/-- Tokens that differ in their blanks alone: any number of them, as wide as they may be, are taken
out and put in anywhere. -/
inductive Respaced : List Token → List Token → Prop
  | nil : Respaced [] []
  | keep (t : Token) {tokens tokens' : List Token} :
      Respaced tokens tokens' → Respaced (t :: tokens) (t :: tokens')
  | remove (width : Nat) {tokens tokens' : List Token} :
      Respaced tokens tokens' → Respaced (.blank width :: tokens) tokens'
  | insert (width : Nat) {tokens tokens' : List Token} :
      Respaced tokens tokens' → Respaced tokens (.blank width :: tokens')

theorem Respaced.insertAll (blanks : solid front = []) (respaced : Respaced tokens tokens') :
    Respaced tokens (front ++ tokens') := by
  induction front with
  | nil => exact respaced
  | cons t front ih =>
    cases t with
    | blank width => exact .insert width (ih blanks)
    | _ => cases blanks

/-- Respaced tokens are those that leave the same tokens when the blanks are left out. -/
theorem respaced_iff : Respaced tokens tokens' ↔ solid tokens = solid tokens' := by
  constructor
  · intro respaced
    induction respaced with
    | nil => rfl
    | keep t _ ih =>
      cases visible : t.isBlank with
      | true => simpa [solid, visible] using ih
      | false => rw [solid_cons visible, solid_cons visible, ih]
    | remove width _ ih => exact ih
    | insert width _ ih => exact ih
  · intro same
    induction tokens generalizing tokens' with
    | nil =>
      rw [← List.append_nil tokens']
      exact Respaced.nil.insertAll same.symm
    | cons t tokens ih =>
      cases visible : t.isBlank with
      | true =>
        cases t with
        | blank width => exact .remove width (ih same)
        | _ => cases visible
      | false =>
        -- The same token stands behind blanks on the other side.
        rw [solid_cons visible] at same
        have split : solid tokens' = [] ++ t :: solid tokens := same.symm
        obtain ⟨front, back, rfl, -, blanks, left⟩ := exists_of_solid_eq split
        exact .insertAll blanks (.keep t (ih left.symm))

/-! ## 2. The same place -/

/-- Columns in some tokens and in others that are those of one token, with respaced tokens on both
sides of it; or those of the two ends. -/
inductive SamePlace (tokens tokens' : List Token) : Span → Span → Prop
  | token {front front' back back' : List Token} {t : Token}
      (split : tokens = front ++ t :: back) (split' : tokens' = front' ++ t :: back')
      (visible : t.isBlank = false) (before : Respaced front front') (behind : Respaced back back') :
      SamePlace tokens tokens' ⟨totalWidth front, totalWidth front + t.width⟩
        ⟨totalWidth front', totalWidth front' + t.width⟩
  | atEnd : SamePlace tokens tokens' ⟨totalWidth tokens, totalWidth tokens⟩
      ⟨totalWidth tokens', totalWidth tokens'⟩

/-- Where as many tokens are left of respaced ones, they are left at the same place. -/
theorem SamePlace.of_split (respaced : Respaced tokens tokens')
    (split : solid tokens = taken ++ rest) :
    SamePlace tokens tokens' (spanBeforeEnd tokens rest.length)
      (spanBeforeEnd tokens' rest.length) := by
  have split' : solid tokens' = taken ++ rest := respaced_iff.1 respaced ▸ split
  cases rest with
  | nil =>
    rw [List.length_nil, spanBeforeEnd_zero, spanBeforeEnd_zero]
    exact .atEnd
  | cons t rest =>
    obtain ⟨front, back, rfl, visible, before, behind⟩ := exists_of_solid_eq split
    obtain ⟨front', back', rfl, -, before', behind'⟩ := exists_of_solid_eq split'
    have column := spanBeforeEnd_append visible front back
    have column' := spanBeforeEnd_append visible front' back'
    rw [behind] at column
    rw [behind'] at column'
    rw [column, column']
    exact .token rfl rfl visible (respaced_iff.2 (before.trans before'.symm))
      (respaced_iff.2 (behind.trans behind'.symm))

/-- The columns of what is left of respaced tokens are those of the same place. -/
theorem SamePlace.spanBeforeEnd (respaced : Respaced tokens tokens') (count : Nat) :
    SamePlace tokens tokens' (spanBeforeEnd tokens count) (spanBeforeEnd tokens' count) := by
  -- Never more are left than there are.
  have capped (tokens : List Token) : Token.spanBeforeEnd tokens count =
      Token.spanBeforeEnd tokens ((solid tokens).drop ((solid tokens).length - count)).length := by
    rw [Token.spanBeforeEnd, Token.spanBeforeEnd, length_spans, List.length_drop,
      Nat.sub_sub_self (Nat.sub_le _ _)]
  have place := of_split respaced (List.take_append_drop ((solid tokens).length - count) _).symm
  rwa [← capped, respaced_iff.1 respaced, ← capped] at place

end Token

open Token

/-! ## 3. Parsers -/

/-- Two readings, one of some tokens and one of others, with the same result; or with the same error
but for its columns, which are those of the same place. -/
inductive Agree {α : Type} (tokens tokens' : List Token) : Except Error α → Except Error α → Prop
  | read (value : α) : Agree tokens tokens' (.ok value) (.ok value)
  | refused {e e' : Error} (code : e.code = e'.code) (line : e.line = e'.line)
      (detail : e.detail = e'.detail) (place : SamePlace tokens tokens' e.column e'.column) :
      Agree tokens tokens' (.error e) (.error e')

/-- A parser that follows a reader makes the same of respaced tokens. -/
theorem Parser.agree_of_follows {α : Type} {parser : Parser α} {reader : Reader α}
    {tokens tokens' : List Token} (follows : ∀ tokens rest, Follows tokens parser reader rest)
    (respaced : Respaced tokens tokens') :
    Agree tokens tokens' (parser.parse tokens) (parser.parse tokens') := by
  rw [parse_eq_read (follows tokens _), parse_eq_read (follows tokens' _), Reader.read, Reader.read,
    ← respaced_iff.1 respaced]
  cases reader.complete (solid tokens) with
  | ok value => exact .read value
  | error fault => exact .refused rfl rfl rfl (.spanBeforeEnd respaced _)

/-! ## 4. Statements and expressions -/

namespace Statement

variable {tokens tokens' : List Token}

/-- Statements and expressions are the same for respaced tokens, and so are the errors but for the
columns of the token they are at. -/
theorem agree_of_respaced (respaced : Respaced tokens tokens') (line : Option LineNumber) :
    Agree tokens tokens' (ofTokens line tokens) (ofTokens line tokens') ∧
      Agree tokens tokens' (Expr.ofTokens tokens) (Expr.ofTokens tokens') := by
  constructor
  · have agree := Parser.agree_of_follows (fun _ => Parser.follows_statement) respaced
    unfold ofTokens
    generalize Parser.statement.parse tokens = result, Parser.statement.parse tokens' = result'
      at agree ⊢
    cases agree with
    | read statement => exact .read statement
    | refused code _ detail place => exact .refused code rfl detail place
  · exact Parser.agree_of_follows (fun _ => Parser.follows_expression) respaced

/-- A parenthesis that is not closed is missed at the comma, wherever the comma stands. -/
theorem agree_of_respaced_comma :
    let tokens := [Token.word "print", .blank 1, .leftParen, .blank 2, .number "1", .comma, .blank 3]
    let tokens' := [Token.blank 4, .word "print", .leftParen, .number "1", .blank 1, .comma]
    let e : Error := ⟨.syntaxError, some 10, .unknown, "UNBALANCED PARENTHESES"⟩
    Respaced tokens tokens' ∧ ofTokens (some 10) tokens = .error (e.atColumn ⟨10, 11⟩) ∧
      ofTokens (some 10) tokens' = .error (e.atColumn ⟨12, 13⟩) ∧
      SamePlace tokens tokens' ⟨10, 11⟩ ⟨12, 13⟩ := by
  intro tokens tokens' e
  have respaced : Respaced tokens tokens' :=
    .insert 4 <| .keep _ <| .remove 1 <| .keep _ <| .remove 2 <| .keep _ <| .insert 1 <| .keep _ <|
      .remove 3 .nil
  have failed : ofTokens (some 10) tokens = .error (e.atColumn ⟨10, 11⟩) := by decide +kernel
  have failed' : ofTokens (some 10) tokens' = .error (e.atColumn ⟨12, 13⟩) := by decide +kernel
  have agree := (agree_of_respaced respaced (some 10)).1
  rw [failed, failed'] at agree
  cases agree with
  | refused _ _ _ place => exact ⟨respaced, failed, failed', place⟩

end Statement

end LineBasic
