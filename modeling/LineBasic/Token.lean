import LineBasic.Error
import LineBasic.Text

/-!
# Tokens

The words of a line: blanks, words, numerals, string literals, the remark of a `REM` statement,
operators, parentheses and commas, and whatever else a line may hold. `Token.text` writes a token as
it stands in a line; a string literal always with its closing quote, and every blank as spaces.

`Token.lineNumber` reads a token as a line number.
-/

namespace LineBasic

/-- The operators. -/
inductive Operator
  | plus
  | minus
  | times
  | divide
  | equal
  | less
  | greater
  deriving DecidableEq, Repr

namespace Operator

/-- Every operator. -/
def all : List Operator := [plus, minus, times, divide, equal, less, greater]

/-- The character of an operator. -/
def symbol : Operator → Char
  | plus => '+'
  | minus => '-'
  | times => '*'
  | divide => '/'
  | equal => '='
  | less => '<'
  | greater => '>'

/-- The operator with a given character. -/
def ofChar? (c : Char) : Option Operator := all.find? (·.symbol = c)

@[simp] theorem ofChar?_symbol (op : Operator) : ofChar? op.symbol = some op := by
  cases op <;> decide

theorem ofChar?_eq_some_iff {c : Char} {op : Operator} : ofChar? c = some op ↔ op.symbol = c := by
  refine ⟨fun h => by simpa using List.find?_some h, ?_⟩
  rintro rfl
  exact ofChar?_symbol op

end Operator

/-- The words of a line. -/
inductive Token
  | unknown (text : String)
  | blank (width : Nat)
  | word (text : String)
  | number (text : String)
  | string (text : String)
  | remark (text : String)
  | operator (op : Operator)
  | leftParen
  | rightParen
  | comma
  deriving DecidableEq, Repr

namespace Token

/-- The token that is a single character of its own. -/
def ofChar? (c : Char) : Option Token :=
  if c = '(' then some leftParen
  else if c = ')' then some rightParen
  else if c = ',' then some comma
  else (Operator.ofChar? c).map operator

/-- A token as it stands in a line. -/
def text : Token → String
  | unknown s => s
  | blank width => String.ofList (List.replicate width ' ')
  | word s => s
  | number s => s
  | string s => "\"" ++ s ++ "\""
  | remark s => s
  | operator op => String.singleton op.symbol
  | leftParen => "("
  | rightParen => ")"
  | comma => ","

/-- How many characters a token takes up in a line. -/
def width (t : Token) : Nat := t.text.length

/-- Whether a token separates others and says nothing itself. -/
def isBlank : Token → Bool
  | blank _ => true
  | _ => false

/-- Whether a token is a given word, in upper or lower case. -/
def isWord (t : Token) (keyword : String) : Bool :=
  match t with
  | word s => Text.sameWord s keyword
  | _ => false

/-- Whether a token is a numeral. -/
def isNumber : Token → Bool
  | number _ => true
  | _ => false

/-- The variable that a token names. -/
def name : Token → Except Error String
  | word s => .ok s
  | _ => .error (.expected "IDENTIFIER")

/-- The line number that a token stands for: a numeral of digits alone, within range. -/
def lineNumber : Token → Except Error LineNumber
  | number s =>
    if s.toList.all Char.isDigit then
      let value := Nat.ofDigitChars 10 s.toList 0
      if s = "" ∨ LineNumber.max < value then .error .lineNumberOverflow
      else if value = 0 then .error .invalidLineNumber
      else .ok value
    else .error .invalidLineNumber
  | _ => .error .invalidLineNumber

/-- Only numbers from one to the greatest are line numbers. -/
theorem lineNumber_range {t : Token} {n : LineNumber} (h : t.lineNumber = .ok n) :
    1 ≤ n ∧ n ≤ LineNumber.max := by
  unfold lineNumber at h
  split at h
  next s =>
    simp only at h
    split at h
    · split at h
      · cases h
      next fits =>
        split at h
        · cases h
        next positive =>
          cases h
          exact ⟨Nat.pos_of_ne_zero positive, Nat.le_of_not_lt fun large => fits (.inr large)⟩
    · cases h
  · cases h

/-- The tokens that are not blanks. -/
def solid (tokens : List Token) : List Token := tokens.filter fun t => !t.isBlank

/-- The text of a list of tokens. -/
def concat (tokens : List Token) : String :=
  tokens.foldr (fun t rest => t.text ++ rest) ""

end Token

end LineBasic
