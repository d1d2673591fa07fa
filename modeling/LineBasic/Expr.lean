import LineBasic.Number.SixDigits
import LineBasic.Token

/-!
# Expressions

Numbers, variables, the four operations of arithmetic, and assignments, which are expressions too.
Any expression may stand on the left of an assignment; that it has to be a variable is found out
only when the assignment is carried out.

`Expr.text` writes an expression with all its parentheses.
-/

namespace LineBasic

/-- The operations of arithmetic. -/
inductive ArithOp
  | add
  | subtract
  | multiply
  | divide
  deriving DecidableEq, Repr

namespace ArithOp

/-- The operator that an operation is written with. -/
def operator : ArithOp → Operator
  | add => .plus
  | subtract => .minus
  | multiply => .times
  | divide => .divide

/-- The operation that an operator stands for, if it stands for one. -/
def ofOperator? : Operator → Option ArithOp
  | .plus => some add
  | .minus => some subtract
  | .times => some multiply
  | .divide => some divide
  | .equal | .less | .greater => none

/-- The result of an operation. Dividing by zero gives an infinity, or no number for `0 / 0`. -/
def apply : ArithOp → Number → Number → Number
  | add, a, b => a + b
  | subtract, a, b => a - b
  | multiply, a, b => a * b
  | divide, a, b => a / b

/-- The result of the operation that an operator stands for, if it stands for one. -/
def result? (op : Operator) (a b : Number) : Option Number := (ofOperator? op).map (·.apply a b)

@[simp] theorem ofOperator?_operator (op : ArithOp) : ofOperator? op.operator = some op := by
  cases op <;> rfl

@[simp] theorem result?_operator (op : ArithOp) (a b : Number) :
    result? op.operator a b = some (op.apply a b) := by
  rw [result?, ofOperator?_operator, Option.map_some]

end ArithOp

/-- The comparisons. -/
inductive Comparison
  | equal
  | less
  | greater
  deriving DecidableEq, Repr

namespace Comparison

/-- The operator that a comparison is written with. -/
def operator : Comparison → Operator
  | equal => .equal
  | less => .less
  | greater => .greater

/-- The comparison that an operator stands for. -/
def ofOperator? : Operator → Option Comparison
  | .equal => some equal
  | .less => some less
  | .greater => some greater
  | .plus | .minus | .times | .divide => none

/-- Whether a comparison holds. None holds of what is not a number, and the zeros are equal. -/
def holds : Comparison → Number → Number → Bool
  | equal, a, b => a == b
  | less, a, b => a < b
  | greater, a, b => b < a

@[simp] theorem ofOperator?_operator (c : Comparison) : ofOperator? c.operator = some c := by
  cases c <;> rfl

end Comparison

/-- Expressions. -/
inductive Expr
  | constant (value : Number)
  | var (name : String)
  | arith (op : ArithOp) (left right : Expr)
  | assign (target value : Expr)
  deriving DecidableEq, Repr

namespace Expr

/-- The negative of an expression is its difference from zero. -/
def negate (e : Expr) : Expr := arith .subtract (constant 0) e

/-- Two operands with an operator between them, in parentheses. -/
def joined (left : String) (op : Operator) (right : String) : String :=
  "(" ++ left ++ " " ++ op.symbol.toString ++ " " ++ right ++ ")"

/-- An expression in writing. -/
def text : Expr → String
  | constant value => value.format
  | var name => name
  | arith op left right => joined left.text op.operator right.text
  | assign target value => joined target.text .equal value.text

end Expr

end LineBasic
