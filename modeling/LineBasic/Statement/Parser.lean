import LineBasic.Expr.Parser
import LineBasic.Statement

/-!
# Parsing statements

The first word of a statement tells which it is, in upper or lower case. A word that is no keyword
begins an assignment without `LET`. Keywords are not reserved: behind the first word they may name
variables.
-/

namespace LineBasic

/-- The words that a statement can begin with. -/
inductive Keyword
  | rem
  | let
  | print
  | input
  | goto
  | if
  | end
  deriving DecidableEq, Repr

namespace Keyword

/-- Every keyword. -/
def all : List Keyword := [rem, .let, print, input, goto, .if, .end]

/-- The spelling of a keyword, in capitals. -/
def spelling : Keyword → String
  | rem => "REM"
  | .let => "LET"
  | print => "PRINT"
  | input => "INPUT"
  | goto => "GOTO"
  | .if => "IF"
  | .end => "END"

/-- The keyword that a word is, in upper or lower case. -/
def ofWord? (word : String) : Option Keyword :=
  all.find? fun keyword => Text.sameWord word keyword.spelling

end Keyword

/-- The comparison that a token stands for. -/
def Comparison.ofToken (t : Token) : Except Error Comparison :=
  match t with
  | .operator op =>
    match ofOperator? op with
    | some comparison => .ok comparison
    | none => .error (.illegalOperator t.text)
  | t => .error (.illegalOperator t.text)

namespace Parser

/-- Takes all tokens that are left into the text of a remark. A space goes before a token unless the
text is still empty. -/
def remarkFrom (text : String) (s : TokenStream) : String × TokenStream :=
  match known : s.next with
  | (some t, rest) =>
    have := TokenStream.size_next_lt known
    remarkFrom ((if text = "" then "" else text ++ " ") ++ t.text) rest
  | (none, rest) => (text, rest)
termination_by s.size

/-- Parses what follows `REM`: all tokens that are left. -/
def remark : Parser Statement := fun s =>
  let (text, rest) := remarkFrom "" s
  .ok (.remark text, rest)

/-- Takes the equals sign of an assignment. -/
def equals : Parser Unit :=
  expect (fun t => if t = .operator .equal then .ok () else .error (.illegalOperator t.text))
    (.illegalOperator "EXPECTED =")

/-- Parses what follows `LET`. -/
def assign : Parser Statement := do
  let name ← identifier
  equals
  return .assign name (← expression)

/-- Parses expressions as long as a comma stands before each. -/
def readMore (s : TokenStream) : Except Failure (List Expr × TokenStream) :=
  match seen : s.peek with
  | (some .comma, here) => do
    let (value, ⟨behind, fewer⟩) ← readAbove 0 here.next.2
    have : behind.size < s.size := Nat.lt_trans fewer (TokenStream.size_next_peek_lt seen)
    let (more, rest) ← readMore behind
    return (value :: more, rest)
  | (_, here) => .ok ([], here)
termination_by s.size

/-- Parses what follows `PRINT`. -/
def print : Parser Statement := do
  match ← peek with
  | some (.string literal) =>
    let _ ← next
    return .print (some literal) (← readMore)
  | _ =>
    let value ← expression
    return .print none (value :: (← readMore))

/-- Takes the comparison of `IF`. -/
def comparison : Parser Comparison :=
  expect Comparison.ofToken (.illegalOperator "EXPECTED COMPARISON")

/-- Parses what follows `IF`. No assignment may stand in a comparison unless in parentheses. -/
def branch : Parser Statement := do
  let left ← above Precedence.assignment
  let comparison ← comparison
  let right ← above Precedence.assignment
  keyword "THEN"
  return .branch left comparison right (← lineNumber)

/-- Parses what follows a keyword. -/
def statementAfter : Keyword → Parser Statement
  | .rem => remark
  | .let => assign
  | .print => print
  | .input => return .input (← identifier)
  | .goto => return .jump (← lineNumber)
  | .if => branch
  | .end => return .stop

/-- Parses a statement. -/
def statement : Parser Statement := do
  match ← next with
  | some (.word word) =>
    match Keyword.ofWord? word with
    | some keyword => statementAfter keyword
    | none =>
      save (.word word)
      assign
  | some t => fail (.invalidStatement t.text)
  | none => fail (.invalidStatement "EXPECTED STATEMENT")

end Parser

/-- Parses a list of tokens as the statement of a line. -/
def Statement.ofTokens (line : Option LineNumber) (tokens : List Token) :
    Except Error Statement :=
  match Parser.statement.parse tokens with
  | .ok statement => .ok statement
  | .error e => .error (e.atLine line)

end LineBasic
