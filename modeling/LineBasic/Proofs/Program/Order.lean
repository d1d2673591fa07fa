import LineBasic.Program
import LineBasic.Proofs.Statement.Execute

/-!
# The order of the lines

The first line of a program is the least that is stored, and the line that follows a number is the
least that is stored above it.

Results:
1. `first?_eq_some_iff`, `first?_eq_none_iff`: the first line.
2. `next?_eq_some_iff`, `next?_eq_none_iff`: the line above a number.
-/

namespace LineBasic

namespace Program

variable {program : Program} {line after : LineNumber}

theorem contains_iff : program.contains line = true ↔ ∃ entry, (line, entry) ∈ program.toList := by
  simp only [SortedMap.contains, Option.isSome_iff_exists, SortedMap.find?_eq_some_iff]

theorem statement_eq_ok_iff {s : Statement} :
    program.statement line = .ok s ↔
      ∃ entry, (line, entry) ∈ program.toList ∧ entry.statement = some s := by
  simp only [← SortedMap.find?_eq_some_iff, ← Option.bind_eq_some_iff]
  rw [statement]
  cases (program.find? line).bind Entry.statement <;> simp

/-- A line is stored, or some statement can jump to it. -/
def Mentions (program : Program) (n : LineNumber) : Prop :=
  program.contains n = true ∨
    ∃ line statement, program.statement line = .ok statement ∧ statement.target? = some n

theorem mentions_iff {n : LineNumber} :
    program.Mentions n ↔ ∃ entry ∈ program.toList,
      entry.1 = n ∨ entry.2.statement.bind Statement.target? = some n := by
  simp only [Mentions, contains_iff, statement_eq_ok_iff, Option.bind_eq_some_iff, Prod.exists]
  constructor
  · rintro (⟨entry, mem⟩ | ⟨line, s, ⟨entry, mem, attached⟩, jumps⟩)
    · exact ⟨n, entry, mem, .inl rfl⟩
    · exact ⟨line, entry, mem, .inr ⟨s, attached, jumps⟩⟩
  · rintro ⟨line, entry, mem, rfl | ⟨s, attached, jumps⟩⟩
    · exact .inl ⟨entry, mem⟩
    · exact .inr ⟨line, s, ⟨entry, mem, attached⟩, jumps⟩

instance (program : Program) (n : LineNumber) : Decidable (program.Mentions n) :=
  decidable_of_iff _ mentions_iff.symm

theorem find?_eq_none_iff {p : LineNumber → Bool} :
    (program.toList.find? fun entry => p entry.1).map (·.1) = none ↔
      ∀ n, program.contains n → p n = false := by
  simp only [Option.map_eq_none_iff, List.find?_eq_none, Bool.not_eq_true, contains_iff]
  exact ⟨fun none n ⟨entry, mem⟩ => none _ mem, fun none entry mem => none _ ⟨_, mem⟩⟩

theorem isLeast_of_find? {p : LineNumber → Bool}
    (found : (program.toList.find? fun entry => p entry.1).map (·.1) = some line) :
    IsLeast {n | program.contains n ∧ p n} line := by
  obtain ⟨⟨line, entry⟩, first, rfl⟩ := Option.map_eq_some_iff.1 found
  obtain ⟨isKind, before, behind, split, others⟩ := List.find?_eq_some_iff_append.1 first
  refine ⟨⟨contains_iff.2 ⟨entry, by simp [split]⟩, isKind⟩, fun n ⟨stored, isKind⟩ => ?_⟩
  obtain ⟨other, mem⟩ := contains_iff.1 stored
  have sorted := program.sorted
  rw [split] at mem sorted
  rcases List.mem_append.1 mem with mem | mem
  · have not := others _ mem
    simp [isKind] at not
  · rcases List.mem_cons.1 mem with same | mem
    · exact Nat.le_of_eq (congrArg Prod.fst same).symm
    · exact Nat.le_of_lt ((List.pairwise_cons.1 (List.pairwise_append.1 sorted).2.1).1 _ mem)

/-- The first entry of a kind has the least number of that kind. -/
theorem find?_eq_some_iff {p : LineNumber → Bool} :
    (program.toList.find? fun entry => p entry.1).map (·.1) = some line ↔
      IsLeast {n | program.contains n ∧ p n} line := by
  refine ⟨isLeast_of_find?, fun least => ?_⟩
  cases found : (program.toList.find? fun entry => p entry.1).map (·.1) with
  | none =>
    have no := find?_eq_none_iff.1 found line least.1.1
    rw [least.1.2] at no
    cases no
  | some other => rw [(isLeast_of_find? found).unique least]

theorem first?_eq_find? :
    program.first? = (program.toList.find? fun _ => true).map (·.1) := by
  rw [SortedMap.first?]
  cases program.toList <;> rfl

theorem first?_eq_none_iff : program.first? = none ↔ program.isEmpty = true := by
  simp [SortedMap.first?, SortedMap.isEmpty]

/-- The first line is the least that is stored. -/
theorem first?_eq_some_iff :
    program.first? = some line ↔ IsLeast {n | program.contains n} line := by
  rw [first?_eq_find?, find?_eq_some_iff (p := fun _ => true)]
  simp

theorem isEmpty_eq_false (stored : program.contains line = true) : program.isEmpty = false := by
  obtain ⟨entry, mem⟩ := contains_iff.1 stored
  rw [SortedMap.isEmpty, List.isEmpty_eq_false_iff]
  exact List.ne_nil_of_mem mem

theorem next?_eq_none_iff :
    program.next? after = none ↔ ∀ n, program.contains n → n ≤ after := by
  refine (find?_eq_none_iff (p := fun n => decide (after < n))).trans ?_
  simp only [decide_eq_false_iff_not, Nat.not_lt]

/-- The next line above a number is the least that is stored above it. -/
theorem next?_eq_some_iff :
    program.next? after = some line ↔ IsLeast {n | program.contains n ∧ after < n} line := by
  refine (find?_eq_some_iff (p := fun n => decide (after < n))).trans ?_
  simp only [decide_eq_true_iff]

end Program

end LineBasic
