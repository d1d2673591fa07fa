import LineBasic.Proofs.Token.Reader

/-!
# Parsing follows reading without blanks

A stream has tokens that were put back, a cursor and the columns of the token taken last; a reader
has a list of tokens. `TokenStream.Before` ties the two together: the stream stands in front of the
tokens of the list, and its columns are right. Taking a token and putting it back keep this, whatever
blanks are passed over, and a failure behind a token finds the columns of this token on the stream.

So a parser that takes the same steps as a reader has the same outcome, and its errors have the
columns that are worked out for those of the reader.

Results:
1. `TokenStream.taken_next`, `Behind.save`, `peek_of_before`: the steps of a stream.
2. `Parser.Follows.bind`, `Parser.follows_expect`: parsers that follow readers.
3. `Parser.parse_eq_read`: a parser that follows a reader has the same outcome.
-/

namespace LineBasic

open Token

/-! ## 1. Streams -/

namespace TokenStream

/-- A stream of some tokens stands in front of a list of those that are left, without the blanks. The
first of these may have been put back. -/
inductive Before (tokens : List Token) : TokenStream → List Token → Prop
  | fresh {front pending : List Token} {cursor : Nat} {column : Span}
      (split : tokens = front ++ pending) (seen : cursor = totalWidth front)
      (stop : column.stop = cursor) : Before tokens ⟨pending, [], cursor, column⟩ (solid pending)
  | saved {front pending : List Token} {t : Token} {column : Span}
      (split : tokens = front ++ t :: pending) (visible : t.isBlank = false)
      (place : column = ⟨totalWidth front, totalWidth front + t.width⟩) :
      Before tokens ⟨pending, [(column, t)], column.stop, column⟩ (t :: solid pending)

/-- A stream of some tokens stands behind one of them that was taken, and in front of a list of those
that are left, without the blanks. -/
inductive Behind (tokens : List Token) (t : Token) : TokenStream → List Token → Prop
  | mk {front pending : List Token} {column : Span} (split : tokens = front ++ t :: pending)
      (visible : t.isBlank = false)
      (place : column = ⟨totalWidth front, totalWidth front + t.width⟩) :
      Behind tokens t ⟨pending, [], column.stop, column⟩ (solid pending)

/-- What comes of taking a token where a list of them is left. -/
inductive Taken (tokens : List Token) : Option Token × TokenStream → List Token → Prop
  | token {t : Token} {s : TokenStream} {rest : List Token} (behind : Behind tokens t s rest) :
      Taken tokens (some t, s) (t :: rest)
  | atEnd {s : TokenStream} (before : Before tokens s [])
      (place : s.column = ⟨totalWidth tokens, totalWidth tokens⟩) : Taken tokens (none, s) []

variable {tokens rest front pending : List Token} {s : TokenStream} {t : Token} {cursor : Nat}
  {column : Span}

/-- All tokens are left at the beginning. -/
theorem before_ofTokens (tokens : List Token) : Before tokens (ofTokens tokens) (solid tokens) :=
  .fresh (List.nil_append tokens).symm rfl rfl

theorem Behind.before (behind : Behind tokens t s rest) : Before tokens s rest := by
  obtain ⟨split, visible, rfl⟩ := behind
  exact .fresh (split.trans (List.append_cons ..)) (totalWidth_append _ [t]).symm rfl

/-- A token that is put back is left again. -/
theorem Behind.save (behind : Behind tokens t s rest) : Before tokens (s.save t) (t :: rest) := by
  obtain ⟨split, visible, place⟩ := behind
  exact .saved split visible place

/-- Passing over blanks takes the first token that is left. -/
theorem taken_skip (split : tokens = front ++ pending) (seen : cursor = totalWidth front)
    (stop : column.stop = cursor) : Taken tokens (skip cursor column pending) (solid pending) := by
  induction pending generalizing front cursor column with
  | nil =>
    rw [List.append_nil] at split
    subst split seen
    exact .atEnd (.fresh (List.append_nil _).symm rfl stop) (by rw [← stop])
  | cons t pending ih =>
    rw [skip]
    cases visible : t.isBlank with
    | true =>
      rw [show solid (t :: pending) = solid pending by simp [solid, visible]]
      exact ih (split.trans (List.append_cons ..))
        (seen ▸ (totalWidth_append front [t]).symm) rfl
    | false =>
      rw [solid_cons visible]
      subst seen
      exact .token (.mk split visible rfl)

/-- Taking a token takes the first that is left. -/
theorem taken_next (before : Before tokens s rest) : Taken tokens s.next rest := by
  cases before with
  | fresh split seen stop => exact taken_skip split seen stop
  | saved split visible place => exact .token (.mk split visible place)

/-- The columns of what was taken, or of the end, are worked out from the number of tokens that were
left before. -/
theorem Taken.column_eq {taken : Option Token} (out : Taken tokens (taken, s) rest) :
    s.column = spanBeforeEnd tokens rest.length := by
  cases out with
  | token behind =>
    obtain ⟨rfl, visible, rfl⟩ := behind
    exact (spanBeforeEnd_append visible _ _).symm
  | atEnd _ place => rw [place, List.length_nil, spanBeforeEnd_zero]

/-- Looking at the first token that is left leaves it there. -/
theorem peek_of_before (before : Before tokens s rest) :
    s.peek.1 = rest.head? ∧ Before tokens s.peek.2 rest := by
  have out := taken_next before
  unfold peek
  generalize s.next = next at out ⊢
  cases out with
  | token behind => exact ⟨rfl, behind.save⟩
  | atEnd left => exact ⟨rfl, left⟩

end TokenStream

/-! ## 2. Parsers -/

namespace Parser

open TokenStream

variable {α β : Type} {tokens rest : List Token}

/-- A parser and a reader have the same outcome: they leave the same tokens, or they fail with the same
error, at the columns of the token where the reader fails. -/
inductive Outcome (tokens : List Token) :
    Except Failure (α × TokenStream) → Except Fault (α × List Token) → Prop
  | ok (value : α) {s : TokenStream} {rest : List Token} (before : Before tokens s rest) :
      Outcome tokens (.ok (value, s)) (.ok (value, rest))
  | error {e : Error} {s : TokenStream} {rest : List Token} (unplaced : e.column = .unknown)
      (place : s.column = spanBeforeEnd tokens rest.length) :
      Outcome tokens (.error ⟨e, s⟩) (.error ⟨e, rest⟩)

/-- A parser follows a reader on a list of tokens: it has the same outcome on every stream that stands
in front of them. -/
def Follows (tokens : List Token) (parser : Parser α) (reader : Reader α) (rest : List Token) :
    Prop :=
  ∀ s, Before tokens s rest → Outcome tokens (parser s) (reader rest)

theorem Follows.pure (value : α) (rest : List Token) :
    Follows tokens (Pure.pure value) (Pure.pure value) rest :=
  fun _ before => .ok value before

/-- Parsers in a row follow readers in a row. -/
theorem Follows.bind {parser : Parser α} {reader : Reader α} {next : α → Parser β}
    {next' : α → Reader β} (first : Follows tokens parser reader rest)
    (second : ∀ value rest', reader rest = .ok (value, rest') →
      Follows tokens (next value) (next' value) rest') :
    Follows tokens (parser >>= next) (reader >>= next') rest := by
  intro s before
  have out := first s before
  show Outcome tokens (Except.bind (parser s) fun out => next out.1 out.2)
    (Except.bind (reader rest) fun out => next' out.1 out.2)
  generalize made : parser s = left, known : reader rest = right at out
  cases out with
  | ok value behind => exact second value _ known _ behind
  | error unplaced place => exact .error unplaced place

theorem next_bind (f : Option Token → Parser α) (s : TokenStream) :
    (next >>= f) s = f s.next.1 s.next.2 := rfl

theorem peek_bind (f : Option Token → Parser α) (s : TokenStream) :
    (peek >>= f) s = f s.peek.1 s.peek.2 := rfl

/-- A parser that looks at the next token follows a reader that knows what is left. -/
theorem follows_peek {f : Option Token → Parser α} {reader : Reader α}
    (step : ∀ s, Before tokens s rest → Outcome tokens (f rest.head? s) (reader rest)) :
    Follows tokens (peek >>= f) reader rest := by
  intro s before
  obtain ⟨seen, left⟩ := peek_of_before before
  rw [peek_bind, seen]
  exact step _ left

/-- A parser that takes a token follows a reader that knows what is left. -/
theorem follows_next {f : Option Token → Parser α} {reader : Reader α}
    (step : ∀ taken s, Taken tokens (taken, s) rest → Outcome tokens (f taken s) (reader rest)) :
    Follows tokens (next >>= f) reader rest :=
  fun _ before => step _ _ (taken_next before)

/-- Behind a token that was looked at and is taken, a parser follows a reader that advances. -/
theorem follows_taken {parser : Parser α} {reader : Reader α} {t : Token} {s : TokenStream}
    (follows : Follows tokens parser reader rest) (before : Before tokens s (t :: rest)) :
    Outcome tokens ((next >>= fun _ => parser) s)
      ((Reader.advance >>= fun _ => reader) (t :: rest)) := by
  rw [next_bind]
  have taken := taken_next before
  generalize s.next = next at taken ⊢
  cases taken with
  | token behind => exact follows _ behind.before

/-- The errors of an `expect` have no columns yet. -/
def Unplaced (accept : Token → Except Error α) (missing : Error) : Prop :=
  (∀ t e, accept t = .error e → e.column = .unknown) ∧ missing.column = .unknown

theorem follows_expect {accept : Token → Except Error α} {missing : Error}
    (unplaced : Unplaced accept missing) (rest : List Token) :
    Follows tokens (expect accept missing) (Reader.expect accept missing) rest := by
  refine follows_next fun taken s out => ?_
  have place := out.column_eq
  cases out with
  | atEnd => exact .error unplaced.2 place
  | @token t _ rest behind =>
    rw [Reader.expect]
    simp only
    cases made : accept t with
    | ok value => exact .ok value behind.before
    | error e => exact .error (unplaced.1 t e made) place

theorem follows_identifier (rest : List Token) :
    Follows tokens identifier Reader.identifier rest := by
  refine follows_expect ⟨fun t e failed => ?_, rfl⟩ rest
  cases t <;> cases failed <;> rfl

theorem follows_lineNumber (rest : List Token) :
    Follows tokens lineNumber Reader.lineNumber rest := by
  refine follows_expect ⟨fun t e failed => ?_, rfl⟩ rest
  rcases lineNumber_error failed with rfl | rfl <;> rfl

theorem follows_keyword (word : String) (rest : List Token) :
    Follows tokens (keyword word) (Reader.keyword word) rest := by
  refine follows_expect ⟨fun t e failed => ?_, rfl⟩ rest
  split at failed <;> cases failed
  rfl

/-! ## 3. All tokens -/

/-- Nothing may be left. -/
def readEnd : Reader Unit := fun tokens =>
  match tokens with
  | [] => .ok ((), [])
  | t :: rest => .error ⟨.extraneous t.text, t :: rest⟩

theorem follows_expectEnd (rest : List Token) : Follows tokens expectEnd readEnd rest := by
  refine follows_next fun taken s out => ?_
  have place := out.column_eq
  cases out with
  | atEnd left => exact .ok () left
  | token behind => exact .error rfl place

/-- A reader behind which nothing may be left. -/
def readToEnd (reader : Reader α) : Reader α := do
  let value ← reader
  readEnd
  return value

theorem complete_eq (reader : Reader α) (rest : List Token) :
    reader.complete rest = (readToEnd reader rest).map (·.1) := by
  show _ = (Except.bind (reader rest) fun out => Except.bind (readEnd out.2) fun out' =>
    .ok (out.1, out'.2)).map (·.1)
  rw [Reader.complete, StateT.run]
  rcases reader rest with fault | ⟨value, _ | ⟨t, behind⟩⟩ <;> rfl

/-- A parser that follows a reader does on all tokens what the reader does without the blanks. -/
theorem parse_eq_read {parser : Parser α} {reader : Reader α}
    (follows : Follows tokens parser reader (solid tokens)) :
    parser.parse tokens = reader.read tokens := by
  have toEnd : Follows tokens parser.toEnd (readToEnd reader) (solid tokens) :=
    follows.bind fun value rest _ => (follows_expectEnd rest).bind fun _ rest _ => .pure value rest
  have out := toEnd _ (before_ofTokens tokens)
  rw [parse, Reader.read, complete_eq]
  generalize parser.toEnd (.ofTokens tokens) = left, readToEnd reader (solid tokens) = right at out ⊢
  cases out with
  | ok value before => rfl
  | error unplaced place => exact congrArg Except.error (by rw [if_pos unplaced, place])

end Parser

end LineBasic
