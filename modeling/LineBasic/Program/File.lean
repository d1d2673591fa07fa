import LineBasic.Program

/-!
# Programs from files

A file is read line by line, as if its lines were typed in one after the other: a later line
replaces an earlier one of its number, and a number alone removes a line. Lines of white space are skipped.
The first line that is refused ends the reading; its error says where in the file it stands, unless
it says already which program line is at fault.
-/

namespace LineBasic

/-- What was read of a file: the program so far, what was noted, and the error that ended the reading,
if one did. -/
structure FileReading where
  program : Program
  records : List Record
  error : Option Error
  deriving DecidableEq

namespace FileReading

/-- Reads lines of a file into a program. The first of them stands at a given line of the file, whose
lines count from one. The count has no bound here: one that is kept in 32 bits, as line numbers are,
begins again at zero behind `LineNumber.max` lines, and what it says of an error differs from there
on. -/
def ofLines (program : Program) : Nat → List String → FileReading
  | _, [] => ⟨program, [], none⟩
  | fileLine, text :: rest =>
    if Text.isBlankLine text then ofLines program (fileLine + 1) rest
    else
      match Line.ofText text with
      | .error e => ⟨program, [], some (e.orAtLine fileLine)⟩
      | .ok line =>
        if line.isDirect then ⟨program, [], some (.directInFile fileLine)⟩
        else
          match program.insertLine line with
          | (.ok (), after) =>
            let reading := ofLines after (fileLine + 1) rest
            { reading with records := program.recordsOf line ++ reading.records }
          | (.error e, after) => ⟨after, [], some (e.orAtLine fileLine)⟩

/-- Reads the text of a file into an empty program. -/
def ofText (s : String) : FileReading :=
  ofLines .empty 1 ((Text.splitLines s.toList).map String.ofList)

end FileReading

namespace Program

/-- Replaces a program by that in the text of a file. If a line of the file is refused, the program
stays as it is. -/
def load (program : Program) (s : String) : Except Error Unit × Program :=
  let reading := FileReading.ofText s
  match reading.error with
  | none => (.ok (), reading.program)
  | some e => (.error e, program)

/-- What is noted when the text of a file is read. -/
def recordsOfFile (s : String) : List Record := (FileReading.ofText s).records

end Program

end LineBasic
