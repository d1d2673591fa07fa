/-!
# Errors

An error is a code, the program line and the columns that it is about, as far as they are known, and
a detail: the offending word, a name, or what was expected. `Error.text` is what the user reads.

Columns count characters from the start of the statement. The columns `0..0` say nothing, so they
stand for "not known".
-/

namespace LineBasic

/-- The number of a program line. Lines are numbered from 1 to `LineNumber.max`. -/
abbrev LineNumber := Nat

/-- The greatest line number. -/
def LineNumber.max : LineNumber := 4294967295

/-- What kind of thing went wrong. -/
inductive Code
  | syntaxError
  | overflow
  | undefinedLine
  | illegalDirect
  | lineBufferOverflow
  | internalError
  | fileNotFound
  | directStatementInFile
  | break
  | undefinedVariable
  | illegalAssignment
  | illegalOperator
  | invalidStatement
  | extraneousToken
  | invalidNumber
  | ioError
  deriving DecidableEq, Repr

namespace Code

/-- Every code. -/
def all : List Code :=
  [syntaxError, overflow, undefinedLine, illegalDirect, lineBufferOverflow, internalError,
   fileNotFound, directStatementInFile, .break, undefinedVariable, illegalAssignment,
   illegalOperator, invalidStatement, extraneousToken, invalidNumber, ioError]

/-- The number of a code in the table of errors. -/
def number : Code → Nat
  | syntaxError => 2
  | overflow => 6
  | undefinedLine => 8
  | illegalDirect => 12
  | lineBufferOverflow => 23
  | internalError => 51
  | fileNotFound => 53
  | directStatementInFile => 66
  | .break => 70
  | undefinedVariable => 71
  | illegalAssignment => 72
  | illegalOperator => 73
  | invalidStatement => 74
  | extraneousToken => 75
  | invalidNumber => 76
  | ioError => 77

/-- The words for a code. -/
def text : Code → String
  | syntaxError => "SYNTAX ERROR"
  | overflow => "OVERFLOW"
  | undefinedLine => "UNDEFINED LINE"
  | illegalDirect => "ILLEGAL DIRECT"
  | lineBufferOverflow => "LINE BUFFER OVERFLOW"
  | internalError => "INTERNAL ERROR"
  | fileNotFound => "FILE NOT FOUND"
  | directStatementInFile => "DIRECT STATEMENT IN FILE"
  | .break => "BREAK"
  | undefinedVariable => "UNDEFINED VARIABLE"
  | illegalAssignment => "ILLEGAL ASSIGNMENT"
  | illegalOperator => "ILLEGAL OPERATOR"
  | invalidStatement => "INVALID STATEMENT"
  | extraneousToken => "EXTRANEOUS TOKEN"
  | invalidNumber => "INVALID NUMBER"
  | ioError => "I/O ERROR"

/-- Whether an error is found in reading a line or while a program runs. -/
inductive Kind
  | reading
  | running
  deriving DecidableEq, Repr

/-- The kind of a code. -/
def kind : Code → Kind
  | syntaxError | overflow | illegalDirect | lineBufferOverflow | illegalOperator
  | invalidStatement | extraneousToken => .reading
  | _ => .running

end Code

/-- Columns of a statement, from `start` up to but not including `stop`. -/
structure Span where
  start : Nat
  stop : Nat
  deriving DecidableEq, Repr

/-- The columns of an error whose columns are not known. -/
def Span.unknown : Span := ⟨0, 0⟩

/-- Something that went wrong. -/
structure Error where
  code : Code
  line : Option LineNumber
  column : Span
  detail : String
  deriving DecidableEq, Repr

namespace Error

/-- An error about which nothing but its code is known. -/
def of (code : Code) : Error := ⟨code, none, .unknown, ""⟩

/-- With a detail. -/
def withDetail (e : Error) (detail : String) : Error := { e with detail }

/-- With the columns it is about. -/
def atColumn (e : Error) (column : Span) : Error := { e with column }

/-- At a program line, whatever line it was at before. -/
def atLine (e : Error) (line : Option LineNumber) : Error := { e with line }

/-- At a program line unless it is at one already. -/
def orAtLine (e : Error) (line : LineNumber) : Error :=
  match e.line with
  | some _ => e
  | none => e.atLine line

/-- Where an error is, and its detail, as they follow the words of its code. -/
def place (e : Error) : String :=
  let line := match e.line with
    | some line => " " ++ toString line
    | none => ""
  let column :=
    if e.column = .unknown then ""
    else " (" ++ toString e.column.start ++ ".." ++ toString e.column.stop ++ ")"
  let detail := if e.detail = "" then "" else "; " ++ e.detail
  line ++ column ++ detail

/-- An error as the user reads it. `IN` stands before a line or columns. -/
def text (e : Error) : String :=
  if e.line = none ∧ e.column = .unknown then e.code.text ++ e.place
  else e.code.text ++ " IN" ++ e.place

/-- An error as it is shown inside other values. -/
def inspect (e : Error) : String := "Error \x7b " ++ e.text ++ " \x7d"

/-! ### The errors of the language -/

/-- Something was expected that did not follow. -/
def expected (what : String) : Error := (of .syntaxError).withDetail ("EXPECTED " ++ what)

/-- A parenthesis without its partner. -/
def unbalanced : Error := (of .syntaxError).withDetail "UNBALANCED PARENTHESES"

/-- A numeral without digits before its exponent. -/
def unreadableNumeral : Error := (of .syntaxError).withDetail "INVALID NUMBER"

/-- A numeral too large to be a number. -/
def numeralOverflow (numeral : String) : Error := (of .overflow).withDetail numeral

/-- A word or number that cannot be a line number. -/
def invalidLineNumber : Error := (of .syntaxError).withDetail "INVALID LINE NUMBER"

/-- A line number beyond the greatest. -/
def lineNumberOverflow : Error := (of .overflow).withDetail "INVALID LINE NUMBER"

/-- Something other than the operator that had to follow. -/
def illegalOperator (found : String) : Error := (of .illegalOperator).withDetail found

/-- A statement that begins with something other than a word. -/
def invalidStatement (found : String) : Error := (of .invalidStatement).withDetail found

/-- Something behind the end of what was complete. -/
def extraneous (found : String) : Error := (of .extraneousToken).withDetail found

/-- A variable that was read before it had a value. -/
def undefinedVariable (name : String) : Error := (of .undefinedVariable).withDetail name

/-- An assignment to something that is not a variable. -/
def illegalAssignment (target : String) : Error := (of .illegalAssignment).withDetail target

/-- A reply to `INPUT` that is not a number. -/
def invalidReply (reply : String) : Error := (of .invalidNumber).withDetail reply

/-- A line that is not stored. -/
def noSuchLine (line : LineNumber) : Error := (of .undefinedLine).atLine line

/-- A jump from a line to one that is not stored. -/
def undefinedTarget (line target : LineNumber) : Error :=
  ((of .undefinedLine).atLine line).withDetail (toString target)

/-- A run stopped from outside. -/
def breakAt (line : LineNumber) : Error := (of .break).atLine line

/-- No statement said where to go on. -/
def noTransfer : Error := (of .internalError).withDetail "NO CONTROL TRANSFER"

/-- An operator in an expression stood for no operation. -/
def noResult (operator : String) : Error := (of .internalError).withDetail operator

/-- A line without a number in a file. -/
def directInFile (fileLine : Nat) : Error := (of .directStatementInFile).atLine fileLine

/-- A file that does not exist. -/
def fileNotFound (name : String) : Error := (of .fileNotFound).withDetail name

/-- The terminal or the file system failed. -/
def io (reason : String) : Error := (of .ioError).withDetail reason

end Error

end LineBasic
