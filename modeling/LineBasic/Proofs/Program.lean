import LineBasic.Program.File
import LineBasic.Proofs.Line

/-!
# Where stored lines come from

Text and statement of a line are stored by two steps, and lines are replaced and removed in any
order. Still every stored line is one that was taken in as a whole: `Entry.Typed` says that an entry
holds what a text says, and `Program.Holds` that all of a program does. Each way of changing a
program keeps this, so it holds of every program that can come about (`Reachable.holds`).

Results:
1. `Entry.Typed.again`: a stored line is what its own text says.
2. `insertLine_cases`: all that taking in a line can do.
3. `Reachable.holds`: every stored line was typed as it stands.
-/

namespace LineBasic

/-- An entry holds the line of a given number that a text is split up into, with its statement. -/
def Entry.Typed (entry : Entry) (number : LineNumber) (s : String) : Prop :=
  ∃ line statement, Line.ofText s = .ok line ∧ line.number = some number ∧
    line.isEmpty = false ∧ line.statement = .ok statement ∧ entry = ⟨line.text, some statement⟩

/-- A stored line is what its own text says. -/
theorem Entry.Typed.again {entry : Entry} {number : LineNumber} {s : String}
    (typed : entry.Typed number s) : entry.Typed number entry.text := by
  obtain ⟨line, statement, known, numbered, full, readable, rfl⟩ := typed
  exact ⟨line, statement, Line.ofText_text known, numbered, full, readable, rfl⟩

namespace Program

/-- Every stored line is what some text of a kind says. -/
def Holds (kind : String → Prop) (program : Program) : Prop :=
  ∀ number entry, program.find? number = some entry → ∃ s, kind s ∧ entry.Typed number s

variable {kind : String → Prop} {program : Program} {s : String} {line : Line}

/-! ## Taking in one line -/

/-- A line with a statement is stored with it, in place of the line that had its number. -/
theorem insertLine_of_statement {number : LineNumber} {statement : Statement}
    (numbered : line.number = some number) (full : line.isEmpty = false)
    (readable : line.statement = .ok statement) :
    program.insertLine line = (.ok (), program.insert number ⟨line.text, some statement⟩) := by
  -- The text that was stored first is found when the statement is attached to it.
  have found : (program.addLine number line.text).find? number = some ⟨line.text, none⟩ := by
    simp [addLine]
  have twice : (program.addLine number line.text).insert number ⟨line.text, some statement⟩ =
      program.insert number ⟨line.text, some statement⟩ := by
    refine SortedMap.ext_find? fun key => ?_
    by_cases same : key = number <;> simp [addLine, same]
  simp only [insertLine, numbered, full, readable, setStatement, found, twice]
  rfl

/-- Taking in a line is refused, or removes the line of its number, or stores it with its
statement. -/
theorem insertLine_cases (program : Program) (line : Line) :
    (∃ e, program.insertLine line = (.error e, program)) ∨
    (∃ number, line.number = some number ∧ line.isEmpty = true ∧
      program.insertLine line = (.ok (), program.removeLine number)) ∨
    (∃ number statement, line.number = some number ∧ line.isEmpty = false ∧
      line.statement = .ok statement ∧
      program.insertLine line = (.ok (), program.insert number ⟨line.text, some statement⟩)) := by
  cases numbered : line.number with
  | none => exact .inl ⟨.of .illegalDirect, by simp only [insertLine, numbered]⟩
  | some number =>
    cases full : line.isEmpty with
    | true =>
      refine .inr (.inl ⟨number, rfl, rfl, ?_⟩)
      simp only [insertLine, numbered, full]
      rfl
    | false =>
      cases readable : line.statement with
      | error e =>
        refine .inl ⟨e, ?_⟩
        simp only [insertLine, numbered, full, readable]
        rfl
      | ok statement =>
        exact .inr (.inr ⟨number, statement, rfl, rfl, rfl,
          insertLine_of_statement numbered full readable⟩)

theorem Holds.empty : Holds kind .empty := by
  intro number entry found
  cases found

theorem Holds.removeLine (holds : program.Holds kind) (number : LineNumber) :
    (program.removeLine number).Holds kind := by
  intro key entry found
  rw [Program.removeLine, SortedMap.find?_erase] at found
  split at found
  · cases found
  · exact holds key entry found

theorem Holds.insert {number : LineNumber} {entry : Entry} (holds : program.Holds kind)
    (allowed : kind s) (typed : entry.Typed number s) :
    Holds kind (program.insert number entry) := by
  intro key other found
  rw [SortedMap.find?_insert] at found
  split at found
  next same =>
    cases found
    exact ⟨s, allowed, same ▸ typed⟩
  next => exact holds key other found

theorem Holds.insertLine (holds : program.Holds kind) (allowed : kind s)
    (known : Line.ofText s = .ok line) : (program.insertLine line).2.Holds kind := by
  rcases insertLine_cases program line with
    ⟨e, refused⟩ | ⟨number, _, _, removed⟩ | ⟨number, statement, numbered, full, readable, stored⟩
  · rw [refused]
    exact holds
  · rw [removed]
    exact holds.removeLine number
  · rw [stored]
    exact holds.insert allowed ⟨line, statement, known, numbered, full, readable, rfl⟩

/-! ## Reading a file -/

/-- Reading lines of a kind into a program adds lines of that kind. -/
theorem Holds.ofLines {texts : List String} {fileLine : Nat} (holds : program.Holds kind)
    (allowed : ∀ s ∈ texts, kind s) :
    (FileReading.ofLines program fileLine texts).program.Holds kind := by
  induction texts generalizing program fileLine with
  | nil => exact holds
  | cons s rest ih =>
    have others : ∀ s ∈ rest, kind s := fun s mem => allowed s (List.mem_cons_of_mem _ mem)
    unfold FileReading.ofLines
    split
    · exact ih holds others
    · split
      next => exact holds
      next line known =>
        split
        · exact holds
        · have taken := holds.insertLine (allowed s List.mem_cons_self) known
          split
          next after stored => exact ih (by rwa [stored] at taken) others
          next refused => rwa [refused] at taken

/-- What is read of a file was typed in it, without a line feed. -/
theorem Holds.ofText (s : String) :
    (FileReading.ofText s).program.Holds fun typed => '\n' ∉ typed.toList := by
  refine Holds.empty.ofLines fun typed mem => ?_
  obtain ⟨line, cut, rfl⟩ := List.mem_map.1 mem
  rw [String.toList_ofList]
  exact Text.noFeed_of_mem_splitLines cut

theorem Holds.mono {narrow wide : String → Prop} (holds : program.Holds narrow)
    (imp : ∀ s, narrow s → wide s) : program.Holds wide := by
  intro number entry found
  obtain ⟨s, allowed, typed⟩ := holds number entry found
  exact ⟨s, imp s allowed, typed⟩

/-! ## Any sequence of changes -/

/-- The programs that come about when lines of a kind are typed in, lines are removed, and files are
loaded, in any order and also if some of it is refused. -/
inductive Reachable (kind : String → Prop) : Program → Prop
  /-- At the beginning, and after all has been cleared. -/
  | empty : Reachable kind .empty
  | insert {program : Program} {s : String} {line : Line} :
      Reachable kind program → kind s → Line.ofText s = .ok line →
      Reachable kind (program.insertLine line).2
  | remove {program : Program} (number : LineNumber) :
      Reachable kind program → Reachable kind (program.removeLine number)
  | load {program : Program} (s : String) :
      Reachable kind program → Reachable kind (program.load s).2

/-- Every stored line was typed as it stands, in a line that was typed in or in a file. -/
theorem Reachable.holds (reachable : Reachable kind program)
    (files : ∀ s : String, '\n' ∉ s.toList → kind s) : program.Holds kind := by
  induction reachable with
  | empty => exact .empty
  | insert _ allowed known ih => exact ih.insertLine allowed known
  | remove number _ ih => exact ih.removeLine number
  | @load program s _ ih =>
    rw [Program.load]
    split
    · exact (Holds.ofText s).mono files
    · exact ih

end Program

end LineBasic
