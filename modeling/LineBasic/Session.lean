import LineBasic.Program.File
import LineBasic.Run

/-!
# Sessions

A session holds a program and a memory. Lines are typed in, files are loaded, the program is run,
and all is cleared. Nothing but a typed line, a load and a clearing changes the program.
-/

namespace LineBasic

/-- A program, and the memory that its runs leave behind. -/
structure Session where
  program : Program
  memory : Memory

namespace Session

/-- A session without a program. -/
def new (level : Level) : Session := ⟨.empty, .new level⟩

/-- With some records in the log. -/
def noteAll (session : Session) (records : List Record) : Session :=
  { session with memory := { session.memory with log := session.memory.log.addAll records } }

/-- Types in a numbered line. -/
def enter (session : Session) (s : String) : Except Error Unit × Session :=
  match Line.ofText s with
  | .error e => (.error e, session)
  | .ok line =>
    let (result, program) := session.program.insertLine line
    (result, { session with program }.noteAll (session.program.recordsOf line))

/-- Replaces the program by that in the text of a file, and forgets the variables. If a line of the
file is refused, program and variables stay as they are. -/
def load (session : Session) (s : String) : Except Error Unit × Session :=
  let session := session.noteAll (Program.recordsOfFile s)
  match session.program.load s with
  | (.ok (), program) => (.ok (), { program, memory := session.memory.clear })
  | (.error e, program) => (.error e, { session with program })

/-- Erases program and variables. -/
def clear (session : Session) : Session :=
  { program := .empty, memory := session.memory.clear.note .cleared }

/-- Runs the program. -/
def run {m : Type → Type} [Monad m] [Interruptible m] (session : Session) (dev : Device m)
    (mode : Mode) (bound : Nat) : m (Ending × Session) := do
  let (ending, memory) ← session.program.run dev mode bound session.memory
  return (ending, { session with memory })

end Session

end LineBasic
