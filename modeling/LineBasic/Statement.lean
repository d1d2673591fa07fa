import LineBasic.Expr

/-!
# Statements

The seven statements of the language, and `Statement.text`, which writes a statement in its standard
form: keywords in capitals, single spaces, expressions with all their parentheses.
-/

namespace LineBasic

/-- Statements. -/
inductive Statement
  /-- `REM`: a remark, which does nothing. -/
  | remark (text : String)
  /-- `LET`: gives a variable a value. -/
  | assign (name : String) (value : Expr)
  /-- `PRINT`: writes a literal and some values on one line. -/
  | print (literal : Option String) (values : List Expr)
  /-- `INPUT`: asks for the value of a variable. -/
  | input (name : String)
  /-- `GOTO`: goes on at another line. -/
  | jump (target : LineNumber)
  /-- `IF … THEN`: goes on at another line if a comparison holds. -/
  | branch (left : Expr) (comparison : Comparison) (right : Expr) (target : LineNumber)
  /-- `END`: ends the run. -/
  | stop
  deriving DecidableEq, Repr

namespace Statement

/-- A statement in its standard form. -/
def text : Statement → String
  | remark text => if text = "" then "REM" else "REM " ++ text
  | assign name value => "LET " ++ name ++ " = " ++ value.text
  | print literal values =>
    let parts := (literal.map fun s => "\"" ++ s ++ "\"").toList ++ values.map Expr.text
    if parts = [] then "PRINT" else "PRINT " ++ String.intercalate ", " parts
  | input name => "INPUT " ++ name
  | jump target => "GOTO " ++ toString target
  | branch left comparison right target =>
    "IF " ++ left.text ++ " " ++ comparison.operator.symbol.toString ++ " " ++ right.text ++
      " THEN " ++ toString target
  | stop => "END"

end Statement

end LineBasic
