import LineBasic.Number.Numeral
import LineBasic.Token

/-!
# Cutting a text into tokens

`Token.ofText` cuts a text into tokens. Blanks, numerals and words are as long as they can be; a
string literal ends at its closing quote or with the text. The word `REM` at the beginning of a
statement makes a remark of all that follows it, so a remark may hold any characters. A line number
may stand before the statement, and more than one does no harm.

Line ends and blanks at the end of a text are dropped, and so is white space at the end of a remark.
-/

namespace LineBasic

/-- Where in a statement the next token stands. -/
inductive Place
  /-- Nothing but digits has been seen. -/
  | opening
  /-- The statement has begun. -/
  | inside
  /-- The statement has begun with `REM`. -/
  | remark
  deriving DecidableEq, Repr

namespace Token

/-- The place behind a token. -/
def placeAfter (place : Place) : Token → Place
  | blank _ => place
  | number s => if place = .opening ∧ s.toList.all Char.isDigit then .opening else .inside
  | word s => if place = .opening ∧ Text.sameWord s "REM" then .remark else .inside
  | _ => .inside

/-- Whether a character goes on with a run of unknown characters. -/
def continuesUnknown (c : Char) : Bool :=
  !(c.isAlphanum || Text.isBlank c || c == '"' || (ofChar? c).isSome)

/-- Whether a text goes on with the digits of an exponent, perhaps behind a sign. -/
def exponentFollows : List Char → Bool
  | [] => false
  | c :: cs => if c = '+' ∨ c = '-' then cs.head?.any Char.isDigit else c.isDigit

/-- Whether a numeral goes on from one character to the next, and if it does, whether an exponent has
been begun with it. What is known of the characters before is whether there was a point, and whether
there was the mark of an exponent. -/
def goesOn? (point marked : Bool) (last c : Char) (cs : List Char) : Option Bool :=
  if (last = 'e' ∨ last = 'E') ∧ (c = '+' ∨ c = '-') then some marked
  else if c.isDigit then some marked
  else if ¬ point ∧ ¬ marked ∧ c = '.' then some marked
  else if ¬ marked ∧ (c = 'e' ∨ c = 'E') ∧ exponentFollows cs then some true
  else none

/-- Takes what is left of a numeral off a text, from the last character of it that has been seen. -/
def takeNumeral (point marked : Bool) (last : Char) : List Char → List Char × List Char
  | [] => ([last], [])
  | c :: cs =>
    let point := point || last == '.'
    match goesOn? point marked last c cs with
    | some marked =>
      let (taken, rest) := takeNumeral point marked c cs
      (last :: taken, rest)
    | none => ([last], c :: cs)

theorem length_takeNumeral_le (point marked : Bool) (last : Char) (cs : List Char) :
    (takeNumeral point marked last cs).2.length ≤ cs.length := by
  induction cs generalizing point marked last with
  | nil => exact Nat.le_refl _
  | cons c cs ih =>
    rw [takeNumeral]
    split
    · exact Nat.le_succ_of_le (ih ..)
    · exact Nat.le_refl _

/-- The first token of a text that begins with `c`, and the text behind it. -/
def takeFirst (place : Place) (c : Char) (cs : List Char) : Token × List Char :=
  if Text.isBlank c then
    (blank ((cs.takeWhile Text.isBlank).length + 1), cs.dropWhile Text.isBlank)
  else if place = .remark then (remark (String.ofList (c :: cs)), [])
  else if c.isDigit ∨ c = '.' then
    let (numeral, rest) := takeNumeral false false c cs
    (number (String.ofList numeral), rest)
  else if c.isAlpha then
    (word (String.ofList (c :: cs.takeWhile Char.isAlphanum)), cs.dropWhile Char.isAlphanum)
  else if c = '"' then
    (string (String.ofList (cs.takeWhile (· ≠ '"'))), (cs.dropWhile (· ≠ '"')).tail)
  else match ofChar? c with
    | some t => (t, cs)
    | none =>
      (unknown (String.ofList (c :: cs.takeWhile continuesUnknown)),
        cs.dropWhile continuesUnknown)

theorem length_takeFirst_lt (place : Place) (c : Char) (cs : List Char) :
    (takeFirst place c cs).2.length < (c :: cs).length := by
  have drop (p : Char → Bool) : (cs.dropWhile p).length ≤ cs.length :=
    (List.dropWhile_suffix p).length_le
  simp only [takeFirst]
  split
  · exact Nat.lt_succ_of_le (drop _)
  · split
    · simp
    · split
      next => exact Nat.lt_succ_of_le (length_takeNumeral_le ..)
      · split
        · exact Nat.lt_succ_of_le (drop _)
        · split
          · have := drop (· ≠ '"')
            simp only [List.length_tail, List.length_cons]
            omega
          · split
            · simp
            · exact Nat.lt_succ_of_le (drop _)

/-- The tokens of a text that begins at a given place. -/
def scan (place : Place) : List Char → List Token
  | [] => []
  | c :: cs =>
    let first := takeFirst place c cs
    first.1 :: scan (placeAfter place first.1) first.2
termination_by cs => cs.length
decreasing_by exact length_takeFirst_lt place c cs

/-- Without white space at the end of a remark. -/
def trimRemark : Token → Token
  | remark s => remark (String.ofList (Text.trimEnd s.toList))
  | t => t

/-- Without a blank at the end, and with the remark trimmed that then comes last. -/
def trimLast (tokens : List Token) : List Token :=
  let kept := if tokens.getLast?.any isBlank then tokens.dropLast else tokens
  match kept.getLast? with
  | some last => kept.dropLast ++ [last.trimRemark]
  | none => kept

/-- The tokens of a text. -/
def ofText (s : String) : List Token :=
  trimLast (scan .opening (Text.dropTrailing Text.isLineEnd s.toList))

end Token

end LineBasic
