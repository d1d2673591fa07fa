import LineBasic.Token.Lexer

/-!
# Commands

What can be typed without a line number. `Command.ofText` reads a command; its words may be written
in upper or lower case, and blanks have no bearing on it.
-/

namespace LineBasic

/-- Commands. -/
inductive Command
  /-- `RUN`: runs the program. -/
  | run
  /-- `DEBUG`: runs the program line by line. -/
  | debug
  /-- `LIST`: shows the lines from one number to another. -/
  | list (first last : LineNumber)
  /-- `CLEAR`: erases the program. -/
  | clear
  /-- `SAVE`: writes the program to a file. -/
  | save (file : String)
  /-- `OLD` or `LOAD`: replaces the program by that of a file. -/
  | old (file : String)
  /-- `HELP`: explains the commands. -/
  | help
  /-- `QUIT` or `EXIT`: ends the session. -/
  | quit
  deriving DecidableEq, Repr

namespace Command

/-- The first word of a command. -/
inductive Verb
  | run
  | debug
  | list
  | clear
  | save
  | old
  | help
  | quit
  deriving DecidableEq, Repr

/-- The words that commands begin with. -/
def verbs : List (String × Verb) :=
  [("RUN", .run), ("DEBUG", .debug), ("LIST", .list), ("CLEAR", .clear), ("SAVE", .save),
   ("OLD", .old), ("LOAD", .old), ("HELP", .help), ("QUIT", .quit), ("EXIT", .quit)]

/-- What a word asks for, in upper or lower case. -/
def Verb.ofWord? (word : String) : Option Verb :=
  (verbs.find? fun entry => Text.sameWord word entry.1).map (·.2)

/-- Fails if anything is left over. -/
def complete (command : Command) : List Token → Except Error Command
  | [] => .ok command
  | t :: _ => .error (.extraneous t.text)

/-- Reads the end of a range of lines, behind its minus sign. Without one the range has no end. -/
def rangeEnd : List Token → Except Error (LineNumber × List Token)
  | [] => .ok (LineNumber.max, [])
  | t :: rest => t.lineNumber.map fun last => (last, rest)

/-- Reads a range of lines: `a`, `a-`, `-b`, `a-b`, or nothing for all lines. -/
def range (tokens : List Token) : Except Error Command := do
  let (first, last, rest) ← match tokens with
    | .number numeral :: rest =>
      (Token.number numeral).lineNumber.map fun first => (first, first, rest)
    | _ => .ok (1, LineNumber.max, tokens)
  match rest with
  | .operator .minus :: rest =>
    let (last, rest) ← rangeEnd rest
    complete (list first last) rest
  | _ => complete (list first last) rest

/-- Reads the name of a file, a string literal. -/
def fileName : List Token → Except Error String
  | [.string name] => if name = "" then .error (.expected "FILE NAME") else .ok name
  | .string _ :: t :: _ => .error (.extraneous t.text)
  | _ => .error (.expected "FILE NAME")

/-- Reads what follows the first word of a command. -/
def readAfter (tokens : List Token) : Verb → Except Error Command
  | .run => complete run tokens
  | .debug => complete debug tokens
  | .list => range tokens
  | .clear => complete clear tokens
  | .save => (fileName tokens).map save
  | .old => (fileName tokens).map old
  | .help => complete help tokens
  | .quit => complete quit tokens

/-- Reads a command. -/
def ofText (s : String) : Except Error Command :=
  match Token.solid (Token.ofText s) with
  | .word word :: rest =>
    match Verb.ofWord? word with
    | some verb => readAfter rest verb
    | none => .error (.of .illegalDirect)
  | _ => .error (.of .illegalDirect)

end Command

end LineBasic
