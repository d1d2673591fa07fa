import LineBasic.Prompt

/-!
# The program at a terminal

Reads lines from standard input and does what they ask for, until one ends the session or there are
no more. The name of a program file may be given as an argument.
-/

namespace LineBasic

namespace Main

/-- Nothing interrupts a run at the terminal but the end of the whole session. -/
instance : Interruptible IO where
  poll := pure false

/-- A line as it is read, without its line end; nothing at the end of the input. -/
def readLine (prompt : String) : IO (Option String) := do
  IO.print prompt
  (← IO.getStdout).flush
  let line ← (← IO.getStdin).getLine
  if line = "" then return none
  return some (String.ofList (Text.dropTrailing Text.isLineEnd line.toList))

/-- Standard input and output. -/
def terminal : Terminal IO where
  write s :=
    try
      IO.print s
      return .ok ()
    catch e => return .error (toString e)
  read prompt :=
    try
      match ← readLine prompt with
      | some line => return .line line
      | none => return .closed
    catch e => return .failed (toString e)

/-- The number of a fault, from its code, which is the number with either sign. -/
def faultNumber (code : UInt32) : UInt32 := if code < 0x80000000 then code else 0 - code

/-- Why the system could not read or write a file. -/
def fault : IO.Error → FileFault
  | .noFileOrDirectory .. => .missing
  | .inappropriateType _ code _ =>
    if faultNumber code = 20 then .notDirectory else .isDirectory
  | .invalidArgument _ code reason =>
    if faultNumber code = 36 then .nameTooLong
    else if faultNumber code = 22 then .nameWithNul
    else .other reason
  | e => .other (toString e)

/-- The files of the system. -/
def files : Files IO where
  read name :=
    try
      return .ok (← IO.FS.readBinFile name)
    catch e => return .error (fault e)
  write name text :=
    try
      IO.FS.writeFile name text
      return .ok ()
    catch e => return .error (fault e)

/-- More lines than any run will carry out. -/
def bound : Nat := 0x4000000000000000

/-- A text that the terminal shows in bold. -/
def bold (s : String) : String := "\x1b[1m" ++ s ++ "\x1b[0m"

/-- Answers one line after the other. -/
partial def loop (session : Session) : IO Unit := do
  let some typed ← readLine "> " | return
  if Text.isBlankLine typed then loop session
  else
    match ← (Prompt.respond terminal files bound typed).run session with
    | (.ok .quit, _) => return
    | (.ok _, session) => loop session
    | (.error e, session) =>
      IO.println (bold e.text)
      loop session

/-- A session with the program of a file, if one is named. -/
def start : List String → IO Session
  | [] => return .new .warning
  | name :: _ => do
    match ← (Prompt.old files name).run (.new .warning) with
    | (.ok (), session) => return session
    | (.error e, session) =>
      IO.eprintln (bold e.text)
      return session

end Main

end LineBasic

/-- Runs a session at the terminal. -/
def main (args : List String) : IO Unit := do
  LineBasic.Main.loop (← LineBasic.Main.start args)
