import LineBasic.Device
import LineBasic.Text

/-!
# The terminal

A `Terminal` writes text and reads lines. `Terminal.console` is the device of a program that runs at
a terminal; when it is traced, every event is shown, dimmed, among the output of the program.
-/

namespace LineBasic

/-- What comes back when a line is read. -/
inductive Typed
  /-- A line was typed. -/
  | line (text : String)
  /-- The user asked for an interrupt instead. -/
  | signal
  /-- There is nothing more to read. -/
  | closed
  /-- Reading failed. -/
  | failed (reason : String)
  deriving DecidableEq, Repr

/-- Writes text and reads lines. -/
structure Terminal (m : Type → Type) where
  /-- Writes a text, or says why it could not. -/
  write : String → m (Except String Unit)
  /-- Reads a line behind a prompt. -/
  read : String → m Typed

namespace Terminal

variable {m : Type → Type} [Monad m]

/-- A text that the terminal shows dimmed. -/
def dimmed (s : String) : String := "\x1b[2m" ++ s ++ "\x1b[0m"

/-- The words with which a run asks whether to go on. -/
def stepPrompt : String := "[ENTER] step, Q stop: "

/-- Whether a line that was typed asks to stop. -/
def asksToStop (s : String) : Bool :=
  Text.sameWord (String.ofList (Text.trim s.toList)) "Q"

/-- An event in writing: a statement before it is carried out; where it led and what the variables
are behind it. -/
def eventText : Event → String
  | .executing line statement => toString line ++ " " ++ statement.text
  | .executed _ _ transfer vars =>
    vars.texts.foldl (fun text binding => text ++ "\n  " ++ binding)
      ("  -> " ++ transfer.text)

/-- Writes a text; a failure is an error of the terminal. -/
def print (terminal : Terminal m) (s : String) : m (Except Error Unit) := do
  match ← terminal.write s with
  | .ok () => return .ok ()
  | .error reason => return .error (.io reason)

/-- Writes some texts one after the other, up to the first that fails. -/
def printAll (terminal : Terminal m) : List String → m (Except Error Unit)
  | [] => return .ok ()
  | s :: rest => do
    match ← terminal.print s with
    | .ok () => terminal.printAll rest
    | .error e => return .error e

/-- Reads the reply to a prompt. -/
def input (terminal : Terminal m) (prompt : String) : m (Except Error String) := do
  match ← terminal.read prompt with
  | .line s => return .ok s
  | .signal => return .error (.of .break)
  | .closed => return .error (.io "END OF INPUT")
  | .failed reason => return .error (.io reason)

/-- Asks whether to go on. Without a line to read there is no going on. -/
def step (terminal : Terminal m) : m (Except Error Bool) := do
  match ← terminal.read stepPrompt with
  | .line s => return .ok (!asksToStop s)
  | .signal | .closed => return .ok false
  | .failed reason => return .error (.io reason)

/-- The device of a program that runs at the terminal. -/
def console (terminal : Terminal m) (traced : Bool) : Device m where
  print := terminal.print
  input := terminal.input
  step _ := terminal.step
  trace event :=
    if traced then terminal.write (dimmed (eventText event) ++ "\n") else return .ok ()

end Terminal

end LineBasic
