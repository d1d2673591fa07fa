import LineBasic.Error
import LineBasic.Number.SixDigits
import LineBasic.SortedMap

/-!
# Variables

The values of variables. Names are told apart by case. A variable has no value until it is given
one, and reading it before that is an error.
-/

namespace LineBasic

/-- The variables that have values, in order of their names. -/
abbrev Variables := SortedMap String Number

namespace Variables

/-- The value of a variable. -/
def value (vars : Variables) (name : String) : Except Error Number :=
  match vars.find? name with
  | some value => .ok value
  | none => .error (.undefinedVariable name)

/-- Each variable with its value, in writing. -/
def texts (vars : Variables) : List String :=
  vars.toList.map fun entry => entry.1 ++ " = " ++ entry.2.format

end Variables

end LineBasic
