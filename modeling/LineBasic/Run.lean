import LineBasic.Program
import LineBasic.Statement.Execute

/-!
# Runs

A run carries out the lines of a program, from the first on, each telling which is next. Before each
line it looks whether it has been interrupted; each statement is shown to the device before and
after it is carried out; and when the program is run step by step, the device is asked after each
line whether to go on.

Programs need not come to an end, so a run is given a bound on the lines it may carry out. A run
that reaches its bound is neither finished nor failed (`Ending.unfinished`).
-/

namespace LineBasic

/-- How a run came to an end, or where it stood when its bound was reached. -/
inductive Ending
  | finished
  | failed (error : Error)
  | unfinished (line : LineNumber)
  deriving DecidableEq, Repr

namespace Program

variable {m : Type → Type} [Monad m]

/-- Lets the device watch. -/
def watch (dev : Device m) (event : Event) : Exec m Unit := fun mem => do
  match ← dev.trace event with
  | .ok () => return (.ok (), mem)
  | .error reason => return (.ok (), mem.note (.traceFailed reason))

/-- The line that follows a transfer from a line, if the run goes on. -/
def follow? (program : Program) (line : LineNumber) :
    Transfer → Except Error (Option LineNumber)
  | .next => .ok (program.next? line)
  | .jump target =>
    if program.contains target then .ok (some target) else .error (.undefinedTarget line target)
  | .halt => .ok none

/-- Asks the device whether to go on after a line, if the program is run step by step. -/
def pause (dev : Device m) (mode : Mode) (line : LineNumber) : Exec m Unit :=
  match mode with
  | .run => return ()
  | .step => do
    if ← Exec.call (dev.step line) then return () else throw (.breakAt line)

/-- Carries out one line, and tells which is next. -/
def runLine [Interruptible m] (program : Program) (dev : Device m) (mode : Mode)
    (line : LineNumber) : Exec m (Option LineNumber) := do
  if ← Exec.poll then throw (.breakAt line)
  let statement ← Exec.ofExcept (program.statement line)
  Exec.note (.executing line statement)
  watch dev (.executing line statement)
  Exec.atLine line (statement.execute dev)
  let transfer ← Exec.onMemory Memory.takeTransfer
  let vars ← Exec.onMemory fun mem => (.ok mem.vars, mem)
  watch dev (.executed line statement transfer vars)
  pause dev mode line
  Exec.ofExcept (program.follow? line transfer)

/-- Carries out lines from one on, as many as the bound allows, and tells which is next then. -/
def runLines [Interruptible m] (program : Program) (dev : Device m) (mode : Mode) :
    Nat → Option LineNumber → Exec m (Option LineNumber)
  | _, none => return none
  | 0, some line => return some line
  | bound + 1, some line => do
    let next ← program.runLine dev mode line
    program.runLines dev mode bound next

/-- How a run has ended, from what `runLines` yields. -/
def ending : Except Error (Option LineNumber) → Ending
  | .ok none => .finished
  | .ok (some line) => .unfinished line
  | .error e => .failed e

/-- What is noted at the end of a run. -/
def endRecord? : Ending → Option Record
  | .finished => some .runFinished
  | .failed e => some (.runAborted e)
  | .unfinished _ => none

/-- Runs a program. The variables of an earlier run are forgotten, and so is an interrupt that was
asked for before the run. -/
def run [Interruptible m] (program : Program) (dev : Device m) (mode : Mode) (bound : Nat)
    (mem : Memory) : m (Ending × Memory) := do
  discard (Interruptible.poll : m Bool)
  let started := mem.clear.note (.runStarted mode)
  let (result, mem) ← (program.runLines dev mode bound program.first?).run started
  let ending := ending result
  return (ending, (endRecord? ending).elim mem mem.note)

end Program

end LineBasic
