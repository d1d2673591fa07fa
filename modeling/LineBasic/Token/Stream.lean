import LineBasic.Token

/-!
# Parsing tokens

A `Parser` takes tokens one after the other off a `TokenStream`, can put the last one back, and may
fail. Blanks are passed over when the next token is looked for. The stream counts columns on its way
and holds on to those of the token that was taken last: an error is about this token, or about the
end if there was no token left.
-/

namespace LineBasic

/-- The tokens of a statement while it is parsed. -/
structure TokenStream where
  /-- The tokens that nobody has seen yet. -/
  pending : List Token
  /-- The tokens that were put back, with their columns. The last one comes first. -/
  saved : List (Span × Token)
  /-- The column behind the tokens that were seen. -/
  cursor : Nat
  /-- The columns of the token that was taken last. -/
  column : Span
  deriving DecidableEq, Repr

namespace TokenStream

/-- All of some tokens. -/
def ofTokens (tokens : List Token) : TokenStream := ⟨tokens, [], 0, .unknown⟩

/-- Takes the first token that is no blank. Every token that is passed over leaves its columns, and
at the end no more than the start of the columns is set. -/
def skip (cursor : Nat) (column : Span) : List Token → Option Token × TokenStream
  | [] => (none, ⟨[], [], cursor, { column with start := cursor }⟩)
  | t :: rest =>
    let stop := cursor + t.width
    if t.isBlank then skip stop ⟨cursor, stop⟩ rest else (some t, ⟨rest, [], stop, ⟨cursor, stop⟩⟩)

/-- Takes the next token: the last one that was put back, or a new one if there is none. -/
def next (s : TokenStream) : Option Token × TokenStream :=
  match s.saved with
  | (column, t) :: saved => (some t, { s with saved, column })
  | [] => skip s.cursor s.column s.pending

/-- Puts back the token that was taken last. -/
def save (s : TokenStream) (t : Token) : TokenStream := { s with saved := (s.column, t) :: s.saved }

/-- Looks at the next token: takes it and puts it back. -/
def peek (s : TokenStream) : Option Token × TokenStream :=
  match s.next with
  | (some t, s) => (some t, s.save t)
  | (none, s) => (none, s)

/-! ## How much is left -/

/-- How many tokens there are left at most, blanks included. -/
def size (s : TokenStream) : Nat := s.pending.length + s.saved.length

variable {s s' : TokenStream} {t : Token} {taken : Option Token}

theorem size_skip (cursor : Nat) (column : Span) (pending : List Token) :
    (skip cursor column pending).2.size + (skip cursor column pending).1.toList.length ≤
      pending.length := by
  induction pending generalizing cursor column with
  | nil => exact Nat.le_refl _
  | cons t rest ih =>
    simp only [skip]
    split
    · exact Nat.le_succ_of_le (ih _ _)
    · exact Nat.le_refl _

theorem size_next (known : s.next = (taken, s')) : s'.size + taken.toList.length ≤ s.size := by
  obtain ⟨pending, saved, cursor, column⟩ := s
  cases saved with
  | nil =>
    have fewer := size_skip cursor column pending
    rw [show skip cursor column pending = (taken, s') from known] at fewer
    exact fewer
  | cons top saved =>
    cases known
    exact Nat.le_refl _

/-- Taking a token leaves fewer. -/
theorem size_next_lt (known : s.next = (some t, s')) : s'.size < s.size := size_next known

/-- Looking at a token leaves no more. -/
theorem size_peek_le (known : s.peek = (taken, s')) : s'.size ≤ s.size := by
  unfold peek at known
  split at known
  next t rest taken =>
    cases known
    exact size_next taken
  next rest none =>
    cases known
    exact size_next none

/-- Taking a token that was looked at leaves fewer. -/
theorem size_next_peek_lt (known : s.peek = (some t, s')) : s'.next.2.size < s.size := by
  unfold peek at known
  split at known
  next t rest taken =>
    cases known
    exact size_next_lt taken
  next => cases known

end TokenStream

/-- A failure: the error, and the stream as it was left. -/
structure Failure where
  error : Error
  stream : TokenStream
  deriving DecidableEq, Repr

/-- Makes something of the tokens that it takes off a stream. -/
abbrev Parser (α : Type) := StateT TokenStream (Except Failure) α

namespace Parser

variable {α : Type}

/-- Takes the next token, if there is one. -/
def next : Parser (Option Token) := fun s => .ok s.next

/-- Looks at the next token, if there is one. -/
def peek : Parser (Option Token) := fun s => .ok s.peek

/-- Puts back the token that was taken last. -/
def save (t : Token) : Parser Unit := fun s => .ok ((), s.save t)

/-- Fails. -/
def fail (e : Error) : Parser α := fun s => .error ⟨e, s⟩

/-- Takes the next token and makes something of it, or fails. -/
def expect (accept : Token → Except Error α) (missing : Error) : Parser α := do
  match ← next with
  | some t =>
    match accept t with
    | .ok value => return value
    | .error e => fail e
  | none => fail missing

/-- Takes a word that names a variable. -/
def identifier : Parser String := expect Token.name (.expected "IDENTIFIER")

/-- Takes a line number. -/
def lineNumber : Parser LineNumber := expect Token.lineNumber (.expected "LINE NUMBER")

/-- Takes a given word. -/
def keyword (word : String) : Parser Unit :=
  expect (fun t => if t.isWord word then .ok () else .error (.expected word)) (.expected word)

/-- Fails if anything is left. -/
def expectEnd : Parser Unit := do
  match ← next with
  | none => return
  | some t => fail (.extraneous t.text)

/-- A parser behind which nothing may be left. -/
def toEnd (parser : Parser α) : Parser α := do
  let value ← parser
  expectEnd
  return value

/-- Parses all of some tokens. An error without columns gets those of the token taken last. -/
def parse (parser : Parser α) (tokens : List Token) : Except Error α :=
  match parser.toEnd (.ofTokens tokens) with
  | .ok (value, _) => .ok value
  | .error ⟨e, s⟩ => .error (if e.column = .unknown then e.atColumn s.column else e)

end Parser

end LineBasic
