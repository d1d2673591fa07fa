import LineBasic.Memory
import LineBasic.Number.Numeral

/-!
# Carrying out statements

A statement evaluates its expressions first and calls on the device, if it does, once: `PRINT` to
write one line and `INPUT` to ask for one number. When it has succeeded it leaves in the transfer
register where the run goes on.
-/

namespace LineBasic

namespace Statement

variable {m : Type → Type} [Monad m]

/-- The line that `PRINT` writes. -/
def printed (literal : Option String) (values : List Number) : String :=
  String.intercalate " " (literal.toList ++ values.map Number.format) ++ "\n"

/-- The words with which `INPUT` asks for a variable. -/
def prompt (name : String) : String := name ++ " ? "

/-- Does what a statement says, and tells where the run goes on. -/
def perform (dev : Device m) : Statement → Exec m Transfer
  | remark _ => return .next
  | assign name value => do
    let result ← Exec.eval value.eval
    Exec.onMemory fun mem => (.ok (), mem.setValue name result)
    return .next
  | print literal values => do
    let results ← Exec.eval (values.mapM Expr.eval)
    Exec.call (dev.print (printed literal results))
    return .next
  | input name => do
    let reply ← Exec.call (dev.input (prompt name))
    match Number.read reply with
    | some value => Exec.onMemory fun mem => (.ok (), mem.setValue name value)
    | none => throw (.invalidReply (String.ofList (Text.trim reply.toList)))
    return .next
  | jump target => return .jump target
  | branch left comparison right target => do
    let a ← Exec.eval left.eval
    let b ← Exec.eval right.eval
    return if comparison.holds a b then .jump target else .next
  | stop => return .halt

/-- Carries out a statement. -/
def execute (dev : Device m) (statement : Statement) : Exec m Unit := do
  let transfer ← statement.perform dev
  Exec.onMemory fun mem => (.ok (), mem.setTransfer transfer)

end Statement

end LineBasic
