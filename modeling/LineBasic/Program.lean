import LineBasic.Line
import LineBasic.Log
import LineBasic.SortedMap

/-!
# Programs

A program is a map from line numbers to lines, so that it is always in order, however it was typed
in. `Program.insertLine` takes in a line: it stores the text, and then gives the stored line its
statement. A line that was stored as text alone cannot be carried out before it is given one.

An operation that can fail yields its result and the program after it.
-/

namespace LineBasic

/-- The stored lines, in order of their numbers. -/
abbrev Program := SortedMap LineNumber Entry

namespace Program

/-- Stores a line as text alone. The statement of the line that had its number is dropped with it. -/
def addLine (program : Program) (number : LineNumber) (text : String) : Program :=
  program.insert number ⟨text, none⟩

/-- Gives a stored line its statement. -/
def setStatement (program : Program) (number : LineNumber) (statement : Statement) :
    Except Error Unit × Program :=
  match program.find? number with
  | some entry => (.ok (), program.insert number { entry with statement := some statement })
  | none => (.error (.noSuchLine number), program)

/-- Removes a line. Removing a line that is not stored changes nothing. -/
def removeLine (program : Program) (number : LineNumber) : Program := program.erase number

/-- Takes in a line, which has to have a number, and a statement that can be read. With nothing
behind its number it removes the line of that number. A line that is refused changes nothing. -/
def insertLine (program : Program) (line : Line) : Except Error Unit × Program :=
  match line.number with
  | none => (.error (.of .illegalDirect), program)
  | some number =>
    if line.isEmpty then (.ok (), program.removeLine number)
    else
      match line.statement with
      | .ok statement => (program.addLine number line.text).setStatement number statement
      | .error e => (.error e, program)

/-- What is noted when a line is removed. -/
def recordsOfRemoval (program : Program) (number : LineNumber) : List Record :=
  if program.contains number then [.removed number] else []

/-- What is noted when a line is taken in. -/
def recordsOf (program : Program) (line : Line) : List Record :=
  match line.number with
  | none => []
  | some number =>
    if line.isEmpty then program.recordsOfRemoval number
    else
      match line.statement with
      | .ok _ => [.stored number]
      | .error _ => []

/-- The text of a line; nothing if it is not stored. -/
def text (program : Program) (number : LineNumber) : String :=
  match program.find? number with
  | some entry => entry.text
  | none => ""

/-- The statement of a line. -/
def statement (program : Program) (number : LineNumber) : Except Error Statement :=
  match (program.find? number).bind Entry.statement with
  | some statement => .ok statement
  | none => .error (.noSuchLine number)

/-- The numbers and texts of all lines. -/
def lines (program : Program) : List (LineNumber × String) :=
  program.toList.map fun entry => (entry.1, entry.2.text)

/-- The texts of the lines from one number to another. -/
def between (program : Program) (first last : LineNumber) : List String :=
  (program.lines.filter fun line => first ≤ line.1 ∧ line.1 ≤ last).map (·.2)

/-- The program as the text of a file. -/
def toFile (program : Program) : String :=
  String.ofList (Text.unlines (program.lines.map fun line => line.2.toList))

end Program

end LineBasic
