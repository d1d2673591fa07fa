import LineBasic.Expr.Eval
import LineBasic.Log

/-!
# The memory of a session

What a session holds besides its program: the variables, the transfer register and the log. A
statement leaves in the register where the run is to go on, and the run takes it from there.

`Exec m` is the monad that statements are carried out in: they change the memory, call on the device
in `m`, and may fail, whereupon the memory is left as it was at the failure.
-/

namespace LineBasic

/-- Variables, transfer register and log. -/
structure Memory where
  vars : Variables
  transfer : Option Transfer
  log : Log

namespace Memory

/-- No variables, an empty register, and an empty log. -/
def new (level : Level) : Memory := ⟨.empty, none, .new level⟩

/-- Without variables and with an empty register. -/
def clear (mem : Memory) : Memory := { mem with vars := .empty, transfer := none }

/-- With a value given to a variable. -/
def setValue (mem : Memory) (name : String) (value : Number) : Memory :=
  { mem with vars := mem.vars.insert name value }

/-- With a transfer in the register. -/
def setTransfer (mem : Memory) (transfer : Transfer) : Memory :=
  { mem with transfer := some transfer }

/-- The transfer in the register, which is emptied. -/
def takeTransfer (mem : Memory) : Except Error Transfer × Memory :=
  match mem.transfer with
  | some transfer => (.ok transfer, { mem with transfer := none })
  | none => (.error .noTransfer, mem)

/-- With a record in the log. -/
def note (mem : Memory) (record : Record) : Memory := { mem with log := mem.log.add record }

/-- Evaluates on the variables. -/
def eval {α : Type} (mem : Memory) (e : Eval α) : Except Error α × Memory :=
  match e.run mem.vars with
  | .ok value vars => (.ok value, { mem with vars })
  | .error err vars => (.error err, { mem with vars })

end Memory

/-- Changes the memory, acts in `m`, and may fail. -/
abbrev Exec (m : Type → Type) (α : Type) := ExceptT Error (StateT Memory m) α

namespace Exec

variable {m : Type → Type} [Monad m] {α : Type}

/-- A step on the memory alone. -/
def onMemory (f : Memory → Except Error α × Memory) : Exec m α := fun mem => pure (f mem)

/-- A call of the device. -/
def call (action : m (Except Error α)) : Exec m α := fun mem => do return (← action, mem)

/-- Yields a value that is known already, or fails as it did. -/
def ofExcept (result : Except Error α) : Exec m α := onMemory fun mem => (result, mem)

/-- Whether an interrupt has been asked for. -/
def poll [Interruptible m] : Exec m Bool := call do return .ok (← Interruptible.poll)

/-- Evaluates on the variables. -/
def eval (e : Eval α) : Exec m α := onMemory (·.eval e)

/-- Puts a record in the log. -/
def note (record : Record) : Exec m Unit := onMemory fun mem => (.ok (), mem.note record)

/-- Gives an error the line at which it occurred, if it has none. -/
def atLine (line : LineNumber) (exec : Exec m α) : Exec m α := fun mem => do
  match ← exec mem with
  | (.ok value, mem) => return (.ok value, mem)
  | (.error e, mem) => return (.error (e.orAtLine line), mem)

end Exec

end LineBasic
