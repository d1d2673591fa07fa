import LineBasic.Line
import LineBasic.Proofs.Text

/-!
# Lines are what their texts say

A line keeps its text without the white space at the end, and that text is split up into the same
line again. So a line that is stored as text can be had back at any time.

Results:
1. `ofText_eq_ok_iff`: what a text is split into, and when.
2. `ofText_text`: the text of a line is split up into that line.
3. `number_range`, `isBlankLine_eq_false`: a line with a number has one in range, and is not blank.
-/

namespace LineBasic

namespace Line

variable {s : String} {line : Line} {n : LineNumber}

theorem ofText_eq_ok_iff :
    ofText s = .ok line ↔
      line.text = String.ofList (Text.trimEnd s.toList) ∧ line.text.length ≤ maxLength ∧
        takeNumber (Token.ofText line.text) = .ok (line.number, line.tokens) := by
  obtain ⟨number, tokens, text⟩ := line
  rw [ofText]
  split
  next long =>
    refine iff_of_false (fun h => nomatch h) ?_
    rintro ⟨rfl, fits, _⟩
    rw [String.length_ofList] at fits
    exact Nat.not_lt.2 fits long
  next fits =>
    rw [Nat.not_lt, ← String.length_ofList] at fits
    constructor
    · intro split
      cases known : takeNumber (Token.ofText (String.ofList (Text.trimEnd s.toList))) with
      | error e =>
        rw [known] at split
        cases split
      | ok found =>
        rw [known] at split
        cases split
        exact ⟨rfl, fits, known⟩
    · rintro ⟨rfl, _, known⟩
      rw [known]

/-- The text of a line is split up into that line. -/
theorem ofText_text (known : ofText s = .ok line) : ofText line.text = .ok line := by
  obtain ⟨text, fits, split⟩ := ofText_eq_ok_iff.1 known
  refine ofText_eq_ok_iff.2 ⟨?_, fits, split⟩
  rw [text, String.toList_ofList, Text.trimEnd_trimEnd]

theorem length_text_le (known : ofText s = .ok line) : line.text.length ≤ maxLength :=
  (ofText_eq_ok_iff.1 known).2.1

/-- The text of a line has no white space at its end. -/
theorem last_text {c : Char} (known : ofText s = .ok line)
    (last : line.text.toList.getLast? = some c) : Text.isSpace c = false := by
  rw [(ofText_eq_ok_iff.1 known).1, String.toList_ofList] at last
  exact Text.last_dropTrailing last

/-- The text of a line holds the characters of the text that it was made of. -/
theorem mem_of_mem_text {c : Char} (known : ofText s = .ok line) (mem : c ∈ line.text.toList) :
    c ∈ Text.dropTrailing Text.isLineEnd s.toList := by
  rw [(ofText_eq_ok_iff.1 known).1, String.toList_ofList] at mem
  exact (Text.dropTrailing_mono fun _ => Text.isSpace_of_isLineEnd).subset mem

theorem takeNumber_range {tokens rest : List Token}
    (taken : takeNumber tokens = .ok (some n, rest)) : 1 ≤ n ∧ n ≤ LineNumber.max := by
  unfold takeNumber at taken
  split at taken
  next numeral _ _ =>
    split at taken
    next number known =>
      split at taken
      · cases taken
        exact Token.lineNumber_range known
      · cases taken
        exact Token.lineNumber_range known
    next => cases taken
  next => cases taken

theorem number_range (known : ofText s = .ok line) (numbered : line.number = some n) :
    1 ≤ n ∧ n ≤ LineNumber.max := by
  obtain ⟨_, _, taken⟩ := ofText_eq_ok_iff.1 known
  rw [numbered] at taken
  exact takeNumber_range taken

/-- A line with a number is no line of white space. -/
theorem isBlankLine_eq_false (known : ofText s = .ok line) (numbered : line.number = some n) :
    Text.isBlankLine s = false := by
  refine Bool.eq_false_iff.2 fun blank => ?_
  obtain ⟨text, _, taken⟩ := ofText_eq_ok_iff.1 known
  rw [Text.trimEnd_eq_nil blank] at text
  rw [text, numbered] at taken
  have none : takeNumber (Token.ofText (String.ofList [])) = .ok (none, []) := by
    simp [Token.ofText, Text.dropTrailing, Token.scan, Token.trimLast, takeNumber]
  rw [none] at taken
  cases taken

end Line

end LineBasic
