import LineBasic.Expr
import LineBasic.Variables

/-!
# Evaluating expressions

An expression is evaluated from left to right. An assignment gives its variable the value on its
right and yields that value. What has been assigned before an error occurs stays assigned: the
variables after evaluation are part of the result either way.
-/

namespace LineBasic

/-- A computation on the variables, which may fail and still have changed them. -/
abbrev Eval (α : Type) := EStateM Error Variables α

namespace Expr

/-- The value of an expression. -/
def eval : Expr → Eval Number
  | constant value => return value
  | var name => do
    match (← get).value name with
    | .ok value => return value
    | .error e => throw e
  | arith op left right => do
    let a ← left.eval
    let b ← right.eval
    match ArithOp.result? op.operator a b with
    | some value => return value
    | none => throw (.noResult op.operator.symbol.toString)
  | assign (var name) value => do
    let result ← value.eval
    modify (·.insert name result)
    return result
  | assign target _ => throw (.illegalAssignment target.text)

end Expr

end LineBasic
