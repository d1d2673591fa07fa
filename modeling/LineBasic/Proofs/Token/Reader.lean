import LineBasic.Token.Stream
import Mathlib

/-!
# Reading tokens without blanks

A `Reader` does what a parser does on a list of tokens among which there are no blanks: it takes
tokens off the front, or fails at one of them. It has no state besides the tokens that are left, so
its steps are those of the list. `Reader.read` leaves out the blanks beforehand and takes them into
account only when it works out the columns of an error.

Results:
1. `read_eq_ok_iff`: what is read is what the reader makes of all tokens but the blanks.
2. `bind_eq_ok_iff`: readers in a row succeed if each does.
3. `expect_eq_ok_iff`: when a token is taken.
4. `spanBeforeEnd_append`, `spanBeforeEnd_zero`: the columns of what is left.
-/

namespace LineBasic

/-! ## 1. Readers -/

/-- A failure: the error, and the tokens from the one at which it was noticed. None are left when
something is missing at the end. -/
structure Fault where
  error : Error
  rest : List Token
  deriving DecidableEq, Repr

/-- Reads a value off the front of a list of tokens. -/
abbrev Reader (α : Type) := StateT (List Token) (Except Fault) α

namespace Reader

/-- Fails at the next token. -/
def fail {α : Type} (e : Error) : Reader α := fun tokens => .error ⟨e, tokens⟩

/-- The next token, if there is one; it is not taken. -/
def peek : Reader (Option Token) := fun tokens => .ok (tokens.head?, tokens)

/-- Takes the next token. -/
def advance : Reader Unit := fun tokens => .ok ((), tokens.tail)

/-- Takes the next token if something can be made of it. -/
def expect {α : Type} (accept : Token → Except Error α) (missing : Error) : Reader α := fun tokens =>
  match tokens with
  | [] => .error ⟨missing, []⟩
  | t :: rest =>
    match accept t with
    | .ok value => .ok (value, rest)
    | .error e => .error ⟨e, t :: rest⟩

/-- Takes a word that names a variable. -/
def identifier : Reader String := expect Token.name (.expected "IDENTIFIER")

/-- Takes a line number. -/
def lineNumber : Reader LineNumber := expect Token.lineNumber (.expected "LINE NUMBER")

/-- Takes a given word. -/
def keyword (word : String) : Reader Unit :=
  expect (fun t => if t.isWord word then .ok () else .error (.expected word)) (.expected word)

end Reader

namespace Token

/-- Why a token is no line number. -/
theorem lineNumber_error {t : Token} {e : Error} (refused : t.lineNumber = .error e) :
    e = .lineNumberOverflow ∨ e = .invalidLineNumber := by
  unfold lineNumber at refused
  split at refused
  · simp only at refused
    split at refused
    · split at refused
      · exact .inl (Except.error.inj refused).symm
      · split at refused
        · exact .inr (Except.error.inj refused).symm
        · cases refused
    · exact .inr (Except.error.inj refused).symm
  · exact .inr (Except.error.inj refused).symm

/-- The columns of the tokens that are not blanks, in a statement whose tokens begin at `start`. -/
def spans (start : Nat) : List Token → List Span
  | [] => []
  | t :: rest =>
    let stop := start + t.width
    if t.isBlank then spans stop rest else ⟨start, stop⟩ :: spans stop rest

/-- How many characters some tokens take up in a line. -/
def totalWidth : List Token → Nat
  | [] => 0
  | t :: rest => t.width + totalWidth rest

/-- The columns of the first of the last `count` tokens that are not blanks; of the end of the
statement if the count is zero. -/
def spanBeforeEnd (tokens : List Token) (count : Nat) : Span :=
  let placed := spans 0 tokens
  let stop := totalWidth tokens
  (placed.drop (placed.length - count)).head?.getD ⟨stop, stop⟩

theorem length_spans (start : Nat) (tokens : List Token) :
    (spans start tokens).length = (solid tokens).length := by
  induction tokens generalizing start with
  | nil => rfl
  | cons t rest ih =>
    simp only [spans, solid, List.filter_cons]
    cases t.isBlank <;> simp [ih, solid]

end Token

namespace Reader

variable {α : Type}

/-- Reads all tokens, of which there are no blanks, and fails if any is left over. -/
def complete (reader : Reader α) (tokens : List Token) : Except Fault α :=
  match reader.run tokens with
  | .ok (value, []) => .ok value
  | .ok (_, t :: rest) => .error ⟨.extraneous t.text, t :: rest⟩
  | .error fault => .error fault

/-- Reads a list of tokens. An error is given the columns of the token it was noticed at. -/
def read (reader : Reader α) (tokens : List Token) : Except Error α :=
  match reader.complete (Token.solid tokens) with
  | .ok value => .ok value
  | .error fault => .error (fault.error.atColumn (Token.spanBeforeEnd tokens fault.rest.length))

/-- What is read is what the reader makes of all tokens but the blanks. -/
theorem read_eq_ok_iff {reader : Reader α} {tokens : List Token} {value : α} :
    reader.read tokens = .ok value ↔ reader.run (Token.solid tokens) = .ok (value, []) := by
  simp only [read, complete]
  rcases reader.run (Token.solid tokens) with fault | ⟨found, _ | ⟨t, rest⟩⟩ <;> simp

end Reader

/-! ## 2. What readers accept -/

namespace Reader

variable {α β : Type}

/-- Two readers in turn succeed if each does, the second on what the first leaves. -/
theorem bind_eq_ok_iff {first : Reader α} {next : α → Reader β} {tokens : List Token}
    {out : β × List Token} :
    (first >>= next) tokens = .ok out ↔
      ∃ value rest, first tokens = .ok (value, rest) ∧ next value rest = .ok out := by
  show (Except.bind (first tokens) fun read => next read.1 read.2) = .ok out ↔ _
  rcases first tokens with fault | ⟨value, rest⟩
  · simp [Except.bind]
  · simp [Except.bind, and_assoc]

theorem bind_of_ok {reader : Reader α} {next : α → Reader β} {tokens rest : List Token} {value : α}
    (done : reader tokens = .ok (value, rest)) : (reader >>= next) tokens = next value rest := by
  show (Except.bind (reader tokens) fun out => next out.1 out.2) = _
  rw [done]
  rfl

theorem bind_of_error {reader : Reader α} {next : α → Reader β} {tokens : List Token} {fault : Fault}
    (failed : reader tokens = .error fault) : (reader >>= next) tokens = .error fault := by
  show (Except.bind (reader tokens) fun out => next out.1 out.2) = _
  rw [failed]
  rfl

theorem pure_eq_ok_iff {value out : α} {tokens rest : List Token} :
    (pure value : Reader α) tokens = .ok (out, rest) ↔ value = out ∧ tokens = rest := by
  show Except.ok (value, tokens) = .ok (out, rest) ↔ _
  simp

theorem peek_bind (next : Option Token → Reader β) (tokens : List Token) :
    (peek >>= next) tokens = next tokens.head? tokens := rfl

/-- A token is taken exactly if something can be made of it. -/
theorem expect_eq_ok_iff {accept : Token → Except Error α} {missing : Error}
    {tokens rest : List Token} {value : α} :
    expect accept missing tokens = .ok (value, rest) ↔
      ∃ t, tokens = t :: rest ∧ accept t = .ok value := by
  cases tokens with
  | nil => simp [expect]
  | cons t tail =>
    rw [expect]
    cases made : accept t with
    | error e =>
      simp only [reduceCtorEq, List.cons.injEq, false_iff]
      rintro ⟨_, ⟨rfl, _⟩, ok⟩
      cases made.symm.trans ok
    | ok found =>
      constructor
      · rintro ⟨⟩
        exact ⟨t, rfl, made⟩
      · rintro ⟨_, ⟨⟩, ok⟩
        rw [Except.ok.inj (made.symm.trans ok)]

theorem identifier_eq_ok_iff {tokens rest : List Token} {name : String} :
    identifier tokens = .ok (name, rest) ↔ tokens = .word name :: rest := by
  refine expect_eq_ok_iff.trans ⟨?_, fun split => ⟨_, split, rfl⟩⟩
  rintro ⟨t, rfl, named⟩
  cases t <;> cases named
  rfl

theorem lineNumber_eq_ok_iff {tokens rest : List Token} {n : LineNumber} :
    lineNumber tokens = .ok (n, rest) ↔ ∃ t, tokens = t :: rest ∧ t.lineNumber = .ok n :=
  expect_eq_ok_iff

theorem keyword_eq_ok_iff {tokens rest : List Token} {word : String} {u : Unit} :
    keyword word tokens = .ok (u, rest) ↔ ∃ t, tokens = t :: rest ∧ t.isWord word = true := by
  refine expect_eq_ok_iff.trans (exists_congr fun t => and_congr_right fun _ => ?_)
  cases t.isWord word <;> simp

end Reader

/-! ## 3. Columns -/

namespace Token


theorem totalWidth_append (front back : List Token) :
    totalWidth (front ++ back) = totalWidth front + totalWidth back := by
  induction front with
  | nil => exact (Nat.zero_add _).symm
  | cons t front ih => rw [List.cons_append, totalWidth, totalWidth, ih, Nat.add_assoc]

theorem spans_append (start : Nat) (front back : List Token) :
    spans start (front ++ back) = spans start front ++ spans (start + totalWidth front) back := by
  induction front generalizing start with
  | nil => rfl
  | cons t front ih =>
    simp only [List.cons_append, spans, totalWidth, ih, Nat.add_assoc]
    split <;> rfl

theorem solid_cons {t : Token} (visible : t.isBlank = false) (back : List Token) :
    solid (t :: back) = t :: solid back := by
  simp [solid, visible]

/-- The columns of a token are known from the number of tokens behind it. -/
theorem spanBeforeEnd_append {t : Token} (visible : t.isBlank = false) (front back : List Token) :
    spanBeforeEnd (front ++ t :: back) (t :: solid back).length =
      ⟨totalWidth front, totalWidth front + t.width⟩ := by
  have behind : (spans 0 (front ++ t :: back)).length - (solid (t :: back)).length =
      (spans 0 front).length := by
    rw [spans_append, List.length_append, length_spans _ (t :: back), Nat.add_sub_cancel]
  have dropped : (spans 0 front ++ spans (0 + totalWidth front) (t :: back)).drop
      (spans 0 front).length = spans (0 + totalWidth front) (t :: back) := List.drop_left
  rw [← spans_append] at dropped
  rw [← solid_cons visible]
  simp [spanBeforeEnd, behind, dropped, spans, visible]

theorem spanBeforeEnd_zero (tokens : List Token) :
    spanBeforeEnd tokens 0 = ⟨totalWidth tokens, totalWidth tokens⟩ := by
  simp [spanBeforeEnd]

theorem solid_append (front back : List Token) :
    solid (front ++ back) = solid front ++ solid back :=
  List.filter_append ..

/-- What stands at a place among the words stands at a place among the tokens. -/
theorem exists_of_solid_eq {tokens words others : List Token} {t : Token}
    (split : solid tokens = words ++ t :: others) :
    ∃ front back, tokens = front ++ t :: back ∧ t.isBlank = false ∧ solid front = words ∧
      solid back = others := by
  obtain ⟨front, behind, rfl, rfl, behindSolid⟩ := List.filter_eq_append_iff.1 split
  obtain ⟨blanks, back, rfl, blank, visible, rfl⟩ := List.filter_eq_cons_iff.1 behindSolid
  refine ⟨front ++ blanks, back, by rw [List.append_assoc], by simpa using visible, ?_, rfl⟩
  rw [solid_append, show solid blanks = [] from List.filter_eq_nil_iff.2 blank, List.append_nil]
  rfl

theorem solid_eq_self {tokens : List Token} (plain : ∀ t ∈ tokens, t.isBlank = false) :
    solid tokens = tokens :=
  List.filter_eq_self.2 fun t mem => by rw [plain t mem]; rfl

end Token

end LineBasic
