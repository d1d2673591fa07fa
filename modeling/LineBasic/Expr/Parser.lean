import LineBasic.Expr
import LineBasic.Number.Numeral
import LineBasic.Token.Stream

/-!
# Parsing expressions

An operator between two operands binds them by its precedence: products before sums, sums before
assignments. Expressions are parsed by climbing these precedences. `readAbove` reads a term and then
every operator that binds tighter than a threshold, each with the operand on its right; what binds no
tighter is left to the caller, so that operators of one precedence group to the left. An assignment
reads its right side at a threshold below its own precedence and so groups to the right.

A minus sign in front of an operand stands for the difference from zero. It takes in products, and
behind a product sign the next operand alone.

Every function leaves a stream with fewer tokens than it was given, or with no more, and its result
says so, so the recursion ends with the tokens.
-/

namespace LineBasic

namespace Precedence

/-- How tightly the equals sign binds. -/
abbrev assignment : Nat := 1

/-- How tightly additions and subtractions bind. -/
abbrev additive : Nat := 2

/-- How tightly multiplications and divisions bind. -/
abbrev multiplicative : Nat := 3

end Precedence

/-- What an operator makes of the operands on its two sides. -/
inductive Connective
  | assign
  | arith (op : ArithOp)
  deriving DecidableEq, Repr

namespace Connective

/-- What an operator makes of its operands, if it can stand in an expression. -/
def ofOperator? : Operator → Option Connective
  | .equal => some assign
  | op => (ArithOp.ofOperator? op).map arith

/-- How tightly a connective binds. -/
def precedence : Connective → Nat
  | assign => Precedence.assignment
  | arith .add | arith .subtract => Precedence.additive
  | arith .multiply | arith .divide => Precedence.multiplicative

/-- The threshold for the operators on the right side of a connective. -/
def rightThreshold : Connective → Nat
  | assign => Precedence.assignment - 1
  | arith op => (arith op).precedence

/-- The expression that a connective makes of two others. -/
def join : Connective → Expr → Expr → Expr
  | assign, target, value => .assign target value
  | arith op, left, right => .arith op left right

end Connective

namespace Expr

/-- Reads the constant that a numeral stands for. Numerals have no sign. -/
def ofNumeral (numeral : String) : Except Error Expr :=
  match Number.read numeral with
  | some value => if value.isFinite then .ok (constant value) else .error (.numeralOverflow numeral)
  | none => .error .unreadableNumeral

end Expr

namespace Parser

/-- A stream on which there is no more than on another. -/
abbrev NoMore (s : TokenStream) := { rest : TokenStream // rest.size ≤ s.size }

/-- A stream on which there is less than on another. -/
abbrev Fewer (s : TokenStream) := { rest : TokenStream // rest.size < s.size }

mutual

def readAbove (threshold : Nat) (s : TokenStream) : Except Failure (Expr × Fewer s) := do
  let (left, ⟨behind, fewer⟩) ← readTerm threshold s
  let (e, ⟨rest, noMore⟩) ← continueAbove threshold left behind
  return (e, ⟨rest, Nat.lt_of_le_of_lt noMore fewer⟩)
termination_by 3 * s.size + 2

def continueAbove (threshold : Nat) (left : Expr) (s : TokenStream) :
    Except Failure (Expr × NoMore s) :=
  match seen : s.peek with
  | (some (.operator op), here) =>
    match Connective.ofOperator? op with
    | some connective =>
      if connective.precedence ≤ threshold then .ok (left, ⟨here, TokenStream.size_peek_le seen⟩)
      else do
        have taken := TokenStream.size_next_peek_lt seen
        let (right, ⟨behind, fewer⟩) ← readAbove connective.rightThreshold here.next.2
        let (e, ⟨rest, noMore⟩) ←
          continueAbove threshold (connective.join left right) behind
        return (e, ⟨rest, by omega⟩)
    | none => .ok (left, ⟨here, TokenStream.size_peek_le seen⟩)
  | (_, here) => .ok (left, ⟨here, TokenStream.size_peek_le seen⟩)
termination_by 3 * s.size

def readTerm (threshold : Nat) (s : TokenStream) : Except Failure (Expr × Fewer s) :=
  match known : s.next with
  | (some (.number numeral), here) =>
    match Expr.ofNumeral numeral with
    | .ok value => .ok (value, ⟨here, TokenStream.size_next_lt known⟩)
    | .error e => .error ⟨e, here⟩
  | (some (.word name), here) => .ok (.var name, ⟨here, TokenStream.size_next_lt known⟩)
  | (some (.operator .minus), here) => do
    have taken := TokenStream.size_next_lt known
    let (operand, ⟨rest, fewer⟩) ← readAbove (max threshold Precedence.additive) here
    return (.negate operand, ⟨rest, Nat.lt_trans fewer taken⟩)
  | (some .leftParen, here) => do
    have taken := TokenStream.size_next_lt known
    let (inner, ⟨behind, fewer⟩) ← readAbove 0 here
    match closing : behind.next with
    | (some .rightParen, rest) =>
      return (inner, ⟨rest, Nat.lt_trans (TokenStream.size_next_lt closing) (Nat.lt_trans fewer taken)⟩)
    | (_, rest) => .error ⟨.unbalanced, rest⟩
  | (some .rightParen, here) => .error ⟨.unbalanced, here⟩
  | (_, here) => .error ⟨.expected "EXPRESSION", here⟩
termination_by 3 * s.size + 1

end

/-- What has been read, and what is left, without the proof that it is less. -/
def forget {α : Type} {p : TokenStream → Prop} (result : Except Failure (α × { rest // p rest })) :
    Except Failure (α × TokenStream) :=
  match result with
  | .ok (value, rest) => .ok (value, rest.val)
  | .error failure => .error failure

/-- Parses a term and the operators behind it that bind tighter than a threshold. -/
def above (threshold : Nat) : Parser Expr := fun s => forget (readAbove threshold s)

/-- Parses the operators that bind tighter than a threshold behind an expression. -/
def aboveFrom (threshold : Nat) (left : Expr) : Parser Expr := fun s =>
  forget (continueAbove threshold left s)

/-- Parses a constant, a variable, an expression in parentheses, or what a minus sign negates. -/
def term (threshold : Nat) : Parser Expr := fun s => forget (readTerm threshold s)

/-- Parses an expression. -/
def expression : Parser Expr := above 0

end Parser

/-- Parses a list of tokens as an expression. -/
def Expr.ofTokens (tokens : List Token) : Except Error Expr := Parser.expression.parse tokens

end LineBasic
