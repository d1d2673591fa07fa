import LineBasic.Expr.Parser
import LineBasic.Proofs.Token.Reader

/-!
# Reading expressions without blanks

Climbing precedences on a list of tokens: the functions are those on a stream, case by case, but that
the next token is the first of the list, and is left there by who looks at it.

One equation for each function says what it does without the proofs about the number of tokens that
the functions carry along. `length_lt_of_above` keeps what those proofs are for: reading an expression
takes at least one token.
-/

namespace LineBasic

namespace Expr

/-! ## 1. Readers -/

/-- What is left of some tokens when any number has been taken off the front. -/
abbrev NoMore (tokens : List Token) := { rest : List Token // rest.length ≤ tokens.length }

/-- What is left of some tokens when at least one has been taken off the front. -/
abbrev Fewer (tokens : List Token) := { rest : List Token // rest.length < tokens.length }

/-- All tokens are left. -/
def NoMore.all (tokens : List Token) : NoMore tokens := ⟨tokens, Nat.le_refl _⟩

/-- All tokens but the first are left. -/
def Fewer.tail (t : Token) (tokens : List Token) : Fewer (t :: tokens) :=
  ⟨tokens, Nat.lt_succ_self _⟩

/-- What is left of some tokens, seen from the token before them. -/
def Fewer.behind (t : Token) {tokens : List Token} (rest : Fewer tokens) : Fewer (t :: tokens) :=
  ⟨rest.val, Nat.lt_succ_of_lt rest.property⟩

/-- What is left of what was left. -/
def Fewer.reduce {tokens : List Token} (rest : Fewer tokens) (further : NoMore rest.val) :
    Fewer tokens :=
  ⟨further.val, Nat.lt_of_le_of_lt further.property rest.property⟩

/-- Fewer tokens are no more. -/
def Fewer.toNoMore {tokens : List Token} (rest : Fewer tokens) : NoMore tokens :=
  ⟨rest.val, Nat.le_of_lt rest.property⟩

/-- Takes a closing parenthesis. -/
def closeParen (tokens : List Token) : Except Fault (Unit × NoMore tokens) :=
  match tokens with
  | .rightParen :: rest => .ok ((), (Fewer.tail .rightParen rest).toNoMore)
  | tokens => .error ⟨.unbalanced, tokens⟩

mutual

def readAbove (threshold : Nat) (tokens : List Token) : Except Fault (Expr × Fewer tokens) := do
  let (left, ⟨rest, h⟩) ← readOperand threshold tokens
  let (e, further) ← continueAbove threshold left rest
  return (e, Fewer.reduce ⟨rest, h⟩ further)
termination_by 3 * tokens.length + 2

def continueAbove (threshold : Nat) (left : Expr) (tokens : List Token) :
    Except Fault (Expr × NoMore tokens) :=
  match tokens with
  | .operator op :: rest =>
    match Connective.ofOperator? op with
    | some connective =>
      if connective.precedence ≤ threshold then .ok (left, NoMore.all _)
      else do
        let (right, ⟨rest', h⟩) ← readAbove connective.rightThreshold rest
        let (e, further) ← continueAbove threshold (connective.join left right) rest'
        return (e, ((Fewer.reduce ⟨rest', h⟩ further).behind _).toNoMore)
    | none => .ok (left, NoMore.all _)
  | tokens => .ok (left, NoMore.all tokens)
termination_by 3 * tokens.length
decreasing_by all_goals simp only [List.length_cons]; omega

def readOperand (threshold : Nat) (tokens : List Token) : Except Fault (Expr × Fewer tokens) :=
  match tokens with
  | .number numeral :: rest =>
    match ofNumeral numeral with
    | .ok value => .ok (value, Fewer.tail _ rest)
    | .error e => .error ⟨e, .number numeral :: rest⟩
  | .word name :: rest => .ok (var name, Fewer.tail _ rest)
  | .operator .minus :: rest => do
    let (operand, fewer) ← readAbove (max threshold Precedence.additive) rest
    return (negate operand, fewer.behind _)
  | .leftParen :: rest => do
    let (inner, ⟨rest', h⟩) ← readAbove 0 rest
    let ((), further) ← closeParen rest'
    return (inner, (Fewer.reduce ⟨rest', h⟩ further).behind _)
  | .rightParen :: rest => .error ⟨.unbalanced, .rightParen :: rest⟩
  | tokens => .error ⟨.expected "EXPRESSION", tokens⟩
termination_by 3 * tokens.length + 1
decreasing_by all_goals simp only [List.length_cons]; omega

end

/-- What has been read, and what is left, without the proof that it is less. -/
def forget {α : Type} {p : List Token → Prop} (result : Except Fault (α × { rest // p rest })) :
    Except Fault (α × List Token) :=
  match result with
  | .ok (value, rest) => .ok (value, rest.val)
  | .error fault => .error fault

/-- Reads an operand and the operators behind it that bind tighter than a threshold. -/
def above (threshold : Nat) : Reader Expr := fun tokens => forget (readAbove threshold tokens)

/-- Reads the operators that bind tighter than a threshold behind an expression. -/
def aboveFrom (threshold : Nat) (left : Expr) : Reader Expr := fun tokens =>
  forget (continueAbove threshold left tokens)

/-- Reads a constant, a variable, an expression in parentheses, or what a minus sign negates. -/
def operand (threshold : Nat) : Reader Expr := fun tokens => forget (readOperand threshold tokens)

/-- Reads an expression. -/
def assignment : Reader Expr := above 0

/-- Reads an expression up to an equals sign that does not stand in parentheses. -/
def sum : Reader Expr := above Precedence.assignment

/-- Takes the closing parenthesis behind an expression. -/
def closing (inner : Expr) : Reader Expr :=
  Reader.expect (fun t => if t = .rightParen then .ok inner else .error .unbalanced) .unbalanced

/-! ## 2. Step by step -/

/-- What is left is what the result says of it. -/
theorem forget_eq_ok {p : List Token → Prop} {result : Except Fault (Expr × { rest // p rest })}
    {e : Expr} {rest : List Token} (read : forget result = .ok (e, rest)) : p rest := by
  unfold forget at read
  split at read
  next left =>
    cases read
    exact left.property
  next => cases read

/-- Why a numeral stands for no constant. -/
theorem ofNumeral_error {numeral : String} {e : Error} (refused : ofNumeral numeral = .error e) :
    e = .numeralOverflow numeral ∨ e = .unreadableNumeral := by
  unfold ofNumeral at refused
  split at refused
  · split at refused
    · cases refused
    · exact .inl (Except.error.inj refused).symm
  · exact .inr (Except.error.inj refused).symm

/-- Goes on behind what has been read. -/
def andThen (result : Except Fault (Expr × List Token))
    (next : Expr → List Token → Except Fault (Expr × List Token)) :
    Except Fault (Expr × List Token) :=
  match result with
  | .ok (e, rest) => next e rest
  | .error fault => .error fault

theorem andThen_eq_ok {result : Except Fault (Expr × List Token)}
    {next : Expr → List Token → Except Fault (Expr × List Token)} {out : Expr × List Token}
    (h : andThen result next = .ok out) :
    ∃ e rest, result = .ok (e, rest) ∧ next e rest = .ok out := by
  rcases result with fault | ⟨e, rest⟩
  · cases h
  · exact ⟨e, rest, rfl, h⟩

theorem above_eq (threshold : Nat) (tokens : List Token) :
    above threshold tokens = andThen (operand threshold tokens) (aboveFrom threshold) := by
  simp only [above, operand]
  rw [readAbove]
  rcases readOperand threshold tokens with fault | ⟨left, rest, h⟩
  · rfl
  · simp only [bind, Except.bind, pure, Except.pure, forget, andThen, aboveFrom]
    rcases continueAbove threshold left rest with fault | ⟨e, rest'⟩ <;> rfl

theorem aboveFrom_eq (threshold : Nat) (left : Expr) (tokens : List Token) :
    aboveFrom threshold left tokens =
      match tokens with
      | .operator op :: rest =>
        match Connective.ofOperator? op with
        | some connective =>
          if connective.precedence ≤ threshold then .ok (left, tokens)
          else andThen (above connective.rightThreshold rest) fun right =>
            aboveFrom threshold (connective.join left right)
        | none => .ok (left, tokens)
      | rest => .ok (left, rest) := by
  unfold aboveFrom
  rw [continueAbove.eq_def]
  rcases tokens with _ | ⟨t, rest⟩
  · rfl
  · cases t with
    | operator op =>
      simp only
      cases Connective.ofOperator? op with
      | none => rfl
      | some connective =>
        simp only
        split
        · rfl
        · simp only [bind, Except.bind, pure, Except.pure, forget, andThen, above]
          rcases readAbove connective.rightThreshold rest with fault | ⟨right, rest', h⟩
          · rfl
          · simp only
            rcases continueAbove threshold (connective.join left right) rest' with
              fault | ⟨e, rest''⟩ <;> rfl
    | _ => rfl

theorem operand_eq (threshold : Nat) (tokens : List Token) :
    operand threshold tokens =
      match tokens with
      | .number numeral :: rest =>
        match ofNumeral numeral with
        | .ok value => .ok (value, rest)
        | .error e => .error ⟨e, tokens⟩
      | .word name :: rest => .ok (var name, rest)
      | .operator .minus :: rest =>
        andThen (above (max threshold Precedence.additive) rest) fun e rest =>
          .ok (negate e, rest)
      | .leftParen :: rest =>
        andThen (above 0 rest) closing
      | .rightParen :: _ => .error ⟨.unbalanced, tokens⟩
      | tokens => .error ⟨.expected "EXPRESSION", tokens⟩ := by
  unfold operand
  rw [readOperand.eq_def]
  rcases tokens with _ | ⟨t, rest⟩
  · rfl
  · cases t with
    | number numeral =>
      simp only
      cases ofNumeral numeral <;> rfl
    | operator op =>
      cases op with
      | minus =>
        simp only [bind, Except.bind, pure, Except.pure, forget, andThen, above]
        rcases readAbove (max threshold Precedence.additive) rest with
          fault | ⟨e, rest', h⟩ <;> rfl
      | _ => rfl
    | leftParen =>
      simp only [bind, Except.bind, pure, Except.pure, forget, andThen, above]
      rcases readAbove 0 rest with fault | ⟨inner, rest', h⟩
      · rfl
      · rcases rest' with _ | ⟨t, rest''⟩
        · rfl
        · cases t <;> rfl
    | _ => rfl

theorem length_lt_of_above {threshold : Nat} {tokens rest : List Token} {e : Expr}
    (read : above threshold tokens = .ok (e, rest)) : rest.length < tokens.length :=
  forget_eq_ok read

theorem length_lt_of_operand {threshold : Nat} {tokens rest : List Token} {e : Expr}
    (read : operand threshold tokens = .ok (e, rest)) : rest.length < tokens.length :=
  forget_eq_ok read

/-! ## 3. In a row -/

theorem closing_eq_ok_iff {inner e : Expr} {tokens rest : List Token} :
    closing inner tokens = .ok (e, rest) ↔ tokens = .rightParen :: rest ∧ inner = e := by
  refine Reader.expect_eq_ok_iff.trans ⟨?_, ?_⟩
  · rintro ⟨t, rfl, closed⟩
    split at closed
    next same =>
      cases closed
      exact ⟨by rw [same], rfl⟩
    next => cases closed
  · rintro ⟨rfl, rfl⟩
    exact ⟨_, rfl, rfl⟩

theorem bind_eq_andThen (reader : Reader Expr) (next : Expr → Reader Expr) (tokens : List Token) :
    (reader >>= next) tokens = andThen (reader tokens) next := by
  cases known : reader tokens with
  | error fault => rw [Reader.bind_of_error known, andThen]
  | ok out => rw [Reader.bind_of_ok known, andThen]

theorem above_eq_bind (threshold : Nat) :
    above threshold = operand threshold >>= aboveFrom threshold := by
  funext tokens
  rw [above_eq, bind_eq_andThen]

end Expr

end LineBasic
