import LineBasic.Statement
import LineBasic.Variables

/-!
# What a run talks to

A running program prints, asks for input, is stepped through and is watched. It does so through a
`Device`, whose calls are actions of some monad `m`: `IO` for a terminal, a state monad for a
script. A run can be interrupted from outside at any time, also by the device it talks to; `Interruptible`
is how the run finds out.

`Host σ` is the plainest world for a run: the state of a device, and whether an interrupt has been
asked for. Calls of a device in `StateM (Host σ)` may read and change both.
-/

namespace LineBasic

/-- Where a run goes on behind a statement. -/
inductive Transfer
  /-- At the next line. -/
  | next
  /-- At a given line. -/
  | jump (target : LineNumber)
  /-- Nowhere: the run is over. -/
  | halt
  deriving DecidableEq, Repr

/-- A transfer in writing. -/
def Transfer.text : Transfer → String
  | next => "NEXT"
  | jump target => "GOTO " ++ toString target
  | halt => "END"

/-- What can be watched of a run: each statement before and after it is carried out. -/
inductive Event
  | executing (line : LineNumber) (statement : Statement)
  | executed (line : LineNumber) (statement : Statement) (transfer : Transfer)
      (vars : Variables)

/-- Whether a run goes on by itself or asks before each next line. -/
inductive Mode
  | run
  | step
  deriving DecidableEq, Repr

/-- What a running program needs from outside. -/
structure Device (m : Type → Type) where
  /-- Takes a line of output, with its line end. -/
  print : String → m (Except Error Unit)
  /-- Answers a prompt. -/
  input : String → m (Except Error String)
  /-- Says whether to go on after a line. -/
  step : LineNumber → m (Except Error Bool)
  /-- Watches the run. If that fails, the reason is noted and the run goes on. -/
  trace : Event → m (Except String Unit)

/-- The run can be interrupted. -/
class Interruptible (m : Type → Type) where
  /-- Says whether an interrupt has been asked for since the last time, and forgets it. -/
  poll : m Bool

instance {m : Type → Type} [Monad m] [Interruptible m] {ρ : Type} : Interruptible (StateT ρ m) where
  poll := fun state => do return (← Interruptible.poll, state)

/-- The state of a device, and whether an interrupt has been asked for. -/
structure Host (σ : Type) where
  device : σ
  interrupted : Bool
  deriving DecidableEq, Repr

instance {σ : Type} : Interruptible (StateM (Host σ)) where
  poll := fun host => (host.interrupted, { host with interrupted := false })

end LineBasic
