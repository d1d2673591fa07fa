/-!
# Characters, trimming and lines

Two kinds of white space are kept apart. `isBlank` is the space and the tab, which separate the
words of a statement. `isSpace` is the Unicode property White_Space, which trimming goes by.
Digits, letters and the case of words are those of ASCII: `Char.isDigit`, `Char.isAlpha` and
`Char.toUpper` of the core library.

`splitLines` cuts a file into lines. Nothing is lost but the line ends:
`splitLines_unlines` reads back any lines that hold no line feed and end in no carriage return.
-/

namespace LineBasic.Text

/-- The characters with the Unicode property White_Space, as ranges of code points. -/
def spaceRanges : List (Nat × Nat) :=
  [(0x09, 0x0D), (0x20, 0x20), (0x85, 0x85), (0xA0, 0xA0), (0x1680, 0x1680), (0x2000, 0x200A),
   (0x2028, 0x2029), (0x202F, 0x202F), (0x205F, 0x205F), (0x3000, 0x3000)]

/-- Has the Unicode property White_Space. -/
def isSpace (c : Char) : Bool :=
  spaceRanges.any fun range => range.1 ≤ c.toNat && c.toNat ≤ range.2

/-- Separates the words of a statement. -/
def isBlank (c : Char) : Bool :=
  c == ' ' || c == '\t'

/-- Ends a line. -/
def isLineEnd (c : Char) : Bool :=
  c == '\n' || c == '\r'

/-- Drops the longest ending all of whose characters satisfy `p`. -/
def dropTrailing (p : Char → Bool) (cs : List Char) : List Char :=
  (cs.reverse.dropWhile p).reverse

/-- Without white space at the end. -/
def trimEnd (cs : List Char) : List Char :=
  dropTrailing isSpace cs

/-- Without white space at either end. -/
def trim (cs : List Char) : List Char :=
  trimEnd (cs.dropWhile isSpace)

/-- Holds white space only. -/
def isBlankLine (s : String) : Bool :=
  s.toList.all isSpace

/-- Whether two words differ at most in the case of ASCII letters. -/
def sameWord (a b : String) : Bool :=
  a.toList.map Char.toUpper == b.toList.map Char.toUpper

/-- The lines of a text. A line ends at a line feed, and one carriage return before the line feed
belongs to the line end. A text that ends in a line feed has no empty line behind it. -/
def splitLines : List Char → List (List Char)
  | [] => []
  | '\r' :: '\n' :: cs => [] :: splitLines cs
  | '\n' :: cs => [] :: splitLines cs
  | c :: cs =>
    match splitLines cs with
    | [] => [[c]]
    | line :: lines => (c :: line) :: lines

/-- The text of some lines, each ended by a line feed. -/
def unlines : List (List Char) → List Char
  | [] => []
  | line :: lines => line ++ '\n' :: unlines lines

theorem splitLines_line {line : List Char} (noFeed : '\n' ∉ line)
    (noReturn : line.getLast? ≠ some '\r') (rest : List Char) :
    splitLines (line ++ '\n' :: rest) = line :: splitLines rest := by
  induction line with
  | nil => simp [splitLines]
  | cons c cs ih =>
    have first : c ≠ '\n' := fun h => noFeed (h ▸ List.mem_cons_self)
    have others : '\n' ∉ cs := fun h => noFeed (List.mem_cons_of_mem _ h)
    have last : cs.getLast? ≠ some '\r' := by
      intro h
      rw [List.getLast?_cons, h] at noReturn
      exact noReturn rfl
    rw [List.cons_append, splitLines.eq_def]
    split
    · simp at *
    next rest' shape =>
      -- A carriage return right before the line feed would end the line.
      obtain ⟨rfl, follows⟩ := List.cons.inj shape
      cases cs with
      | nil => exact absurd rfl noReturn
      | cons d ds =>
        obtain ⟨rfl, _⟩ := List.cons.inj follows
        exact absurd List.mem_cons_self others
    next rest' _ shape => exact absurd (List.cons.inj shape).1 first
    next c' cs' _ _ shape =>
      obtain ⟨rfl, rfl⟩ := List.cons.inj shape
      rw [ih others last]

theorem splitLines_unlines {lines : List (List Char)}
    (plain : ∀ line ∈ lines, '\n' ∉ line ∧ line.getLast? ≠ some '\r') :
    splitLines (unlines lines) = lines := by
  induction lines with
  | nil => simp [unlines, splitLines]
  | cons line lines ih =>
    obtain ⟨noFeed, noReturn⟩ := plain line List.mem_cons_self
    rw [unlines, splitLines_line noFeed noReturn,
      ih fun l hl => plain l (List.mem_cons_of_mem _ hl)]

/-- Every blank is white space. -/
theorem isSpace_of_isBlank {c : Char} (h : isBlank c = true) : isSpace c = true := by
  simp [isBlank] at h
  rcases h with rfl | rfl <;> decide

end LineBasic.Text
