import LineBasic.Proofs.Expr.Reader
import LineBasic.Statement.Parser

/-!
# Reading statements without blanks

The readers of statements on a list of tokens: one for each of the parsers, with the same cases.
-/

namespace LineBasic

namespace Statement

/-- The text of a remark, put together from tokens. A space goes before a token unless the text is
still empty. -/
def remarkText (tokens : List Token) : String :=
  tokens.foldl (fun text t => (if text = "" then "" else text ++ " ") ++ t.text) ""

/-- Reads what follows `REM`: all tokens that are left. -/
def readRemark : Reader Statement := fun tokens => .ok (remark (remarkText tokens), [])

/-- Takes the equals sign of an assignment. -/
def readEquals : Reader Unit :=
  Reader.expect (fun t => if t = .operator .equal then .ok () else .error (.illegalOperator t.text))
    (.illegalOperator "EXPECTED =")

/-- Reads what follows `LET`. -/
def readAssign : Reader Statement := do
  let name ← Reader.identifier
  readEquals
  return assign name (← Expr.assignment)

/-- Reads expressions as long as a comma stands before each, at most `bound` of them. Each takes up
its comma at least, so there are never more than there are tokens left. -/
def readMore : Nat → Reader (List Expr)
  | 0 => return []
  | bound + 1 => do
    match ← Reader.peek with
    | some .comma =>
      Reader.advance
      let value ← Expr.assignment
      return value :: (← readMore bound)
    | _ => return []

/-- Reads what follows `PRINT`. -/
def readPrint : Reader Statement := do
  match ← Reader.peek with
  | some (.string literal) =>
    Reader.advance
    return print (some literal) (← readMore (← get).length)
  | _ =>
    let value ← Expr.assignment
    return print none (value :: (← readMore (← get).length))

/-- Takes the comparison of `IF`. -/
def readComparison : Reader Comparison :=
  Reader.expect Comparison.ofToken (.illegalOperator "EXPECTED COMPARISON")

/-- Reads what follows `IF`. No assignment may stand in a comparison unless in parentheses. -/
def readBranch : Reader Statement := do
  let left ← Expr.sum
  let comparison ← readComparison
  let right ← Expr.sum
  Reader.keyword "THEN"
  return branch left comparison right (← Reader.lineNumber)

/-- Reads what follows a keyword. -/
def readAfter : Keyword → Reader Statement
  | .rem => readRemark
  | .let => readAssign
  | .print => readPrint
  | .input => return input (← Reader.identifier)
  | .goto => return jump (← Reader.lineNumber)
  | .if => readBranch
  | .end => return stop

/-- Reads a statement. -/
def reader : Reader Statement := do
  match ← Reader.peek with
  | some (.word word) =>
    match Keyword.ofWord? word with
    | some keyword => Reader.advance; readAfter keyword
    | none => readAssign
  | some t => Reader.fail (.invalidStatement t.text)
  | none => Reader.fail (.invalidStatement "EXPECTED STATEMENT")

theorem reader_word (word : String) (tokens : List Token) :
    reader (.word word :: tokens) =
      match Keyword.ofWord? word with
      | some keyword => readAfter keyword tokens
      | none => readAssign (.word word :: tokens) := by
  rw [reader, Reader.peek_bind]
  simp only [List.head?_cons]
  cases Keyword.ofWord? word <;> rfl

end Statement

end LineBasic
