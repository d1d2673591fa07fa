import LineBasic.Command
import LineBasic.Files
import LineBasic.Session
import LineBasic.Terminal

/-!
# What is typed at the prompt

A line with a number edits the program; a line without one is a command. `Prompt.respond` does what
a typed line asks for, in a session at a terminal and with files.
-/

namespace LineBasic

/-- What becomes of the session behind a typed line. -/
inductive Flow
  /-- It goes on. -/
  | proceed
  /-- It is over. -/
  | quit
  /-- A run reached its bound before a line. -/
  | unfinished (line : LineNumber)
  deriving DecidableEq, Repr

/-- Works on a session, acts in `m`, and may fail. -/
abbrev Prompt (m : Type → Type) (α : Type) := ExceptT Error (StateT Session m) α

namespace Prompt

/-- The help text. -/
def helpText : String :=
  "<n> <statement>   enter or replace program line n\n" ++
  "<n>               delete program line n\n" ++
  "RUN               run the program\n" ++
  "DEBUG             run one line at a time ([ENTER] steps, Q stops)\n" ++
  "LIST [a][-[b]]    list the program or a range of lines\n" ++
  "CLEAR             erase the program\n" ++
  "SAVE \"file\"       write the program to a file\n" ++
  "OLD \"file\"        replace the program with one from a file\n" ++
  "QUIT              leave (also CTRL-D)\n" ++
  "Statements: REM LET PRINT INPUT GOTO IF..THEN END\n"

variable {m : Type → Type} [Monad m] {α : Type}

/-- A step on the session alone. -/
def onSession (f : Session → Except Error α × Session) : Prompt m α := fun session =>
  pure (f session)

/-- An action that leaves the session as it is. -/
def call (action : Session → m (Except Error α)) : Prompt m α := fun session => do
  return (← action session, session)

/-- Notes something in the log of the session. -/
def note (record : Record) : Prompt m Unit :=
  onSession fun session => (.ok (), session.noteAll [record])

/-- Runs the program at the terminal. -/
def runProgram [Interruptible m] (dev : Device m) (mode : Mode) (bound : Nat) : Prompt m Flow :=
  fun session => do
    match ← session.run dev mode bound with
    | (.finished, session) => return (.ok .proceed, session)
    | (.failed e, session) => return (.error e, session)
    | (.unfinished line, session) => return (.ok (.unfinished line), session)

/-- Writes the program to a file. There has to be a program. -/
def save (files : Files m) (name : String) : Prompt m Unit := do
  call fun session =>
    if session.program.isEmpty then return .error (.io "NOTHING TO SAVE")
    else files.save name session.program.toFile
  note (.saved name)

/-- Replaces the program by that of a file. -/
def old (files : Files m) (name : String) : Prompt m Unit := do
  let text ← call fun _ => files.load name
  note (.loaded name)
  onSession (·.load text)

/-- Carries out a command. -/
def perform [Interruptible m] (terminal : Terminal m) (files : Files m) (bound : Nat) :
    Command → Prompt m Flow
  | .run => runProgram (terminal.console false) .run bound
  | .debug => runProgram (terminal.console true) .step bound
  | .list first last => do
    call fun session =>
      terminal.printAll ((session.program.between first last).map (· ++ "\n"))
    return .proceed
  | .clear => do
    onSession fun session => (.ok (), session.clear)
    return .proceed
  | .save name => do
    save files name
    return .proceed
  | .old name => do
    old files name
    return .proceed
  | .help => do
    call fun _ => terminal.print helpText
    return .proceed
  | .quit => return .quit

/-- Does what a typed line asks for. The bound is on the lines that a run may carry out. -/
def respond [Interruptible m] (terminal : Terminal m) (files : Files m) (bound : Nat)
    (typed : String) : Prompt m Flow := do
  let line ← call fun _ => pure (Line.ofText typed)
  if line.isDirect then
    let command ← call fun _ => pure (Command.ofText typed)
    perform terminal files bound command
  else
    onSession (·.enter typed)
    return .proceed

end Prompt

end LineBasic
