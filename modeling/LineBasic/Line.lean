import LineBasic.Statement.Parser
import LineBasic.Token.Lexer

/-!
# Lines

A line as it is typed or stands in a file: perhaps a number, and then a statement or nothing.
`Line.ofText` splits it up; the statement is read only when it is asked for, so a line may hold a
statement that cannot be read.
-/

namespace LineBasic

/-- A line of text, split into its number and the tokens of its statement. -/
structure Line where
  number : Option LineNumber
  tokens : List Token
  text : String
  deriving DecidableEq, Repr

/-- A stored line: its text, and the statement read from it. A line that is stored as text alone has
no statement. -/
structure Entry where
  text : String
  statement : Option Statement
  deriving DecidableEq, Repr

namespace Line

/-- How many characters a line may have. -/
def maxLength : Nat := 1024

/-- The number at the beginning of some tokens, if there is one, and the tokens behind it and the
blank that follows it. -/
def takeNumber (tokens : List Token) : Except Error (Option LineNumber × List Token) :=
  match tokens.dropWhile Token.isBlank with
  | .number numeral :: rest =>
    match (Token.number numeral).lineNumber with
    | .ok number =>
      match rest with
      | .blank _ :: rest => .ok (some number, rest)
      | rest => .ok (some number, rest)
    | .error e => .error e
  | rest => .ok (none, rest)

/-- Splits a text up. White space at its end, the line end included, does not count. -/
def ofText (s : String) : Except Error Line :=
  let text := Text.trimEnd s.toList
  if maxLength < text.length then .error (.of .lineBufferOverflow)
  else
    match takeNumber (Token.ofText (String.ofList text)) with
    | .ok (number, tokens) => .ok ⟨number, tokens, String.ofList text⟩
    | .error e => .error e

/-- Whether a line has no number. -/
def isDirect (line : Line) : Bool := line.number.isNone

/-- Whether nothing follows the number of a line. -/
def isEmpty (line : Line) : Bool := line.tokens.isEmpty

/-- The statement of a line. -/
def statement (line : Line) : Except Error Statement :=
  Statement.ofTokens line.number line.tokens

end Line

end LineBasic
