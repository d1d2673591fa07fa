import LineBasic.Proofs.Program.Order
import LineBasic.Proofs.Run

/-!
# A line more

When a line is added to a program, the way through the program is the old one, or it comes over the
new line first (`Passes`). Where no statement jumps to the new line, that is all that changes for the
lines that were there before.

Results:
1. `passes_first?`, `passes_next?`: the order of the lines with one line more.
2. `carryOut_insert`: the statements of the other lines.
3. `passes_follow?`, `follow?_insert_error`: where the other lines lead.
-/

namespace LineBasic

namespace Program

variable {program : Program} {n m line : LineNumber} {entry : Entry}

theorem contains_insert :
    (program.insert n entry).contains m = true ↔ m = n ∨ program.contains m = true := by
  simp only [SortedMap.contains, SortedMap.find?_insert]
  by_cases same : m = n <;> simp [same]

theorem contains_insert_of_ne (ne : m ≠ n) :
    (program.insert n entry).contains m = program.contains m := by
  rw [Bool.eq_iff_iff, contains_insert, or_iff_right ne]

theorem statement_insert_of_ne (ne : m ≠ n) :
    statement (program.insert n entry) m = program.statement m := by
  rw [statement, statement, SortedMap.find?_insert, if_neg ne]

theorem statement_insert_self {s : Statement} {text : String} :
    statement (program.insert n ⟨text, some s⟩) n = .ok s := by
  rw [statement, SortedMap.find?_insert, if_pos rfl]
  rfl

/-- The statements of the other lines are carried out as before. -/
theorem carryOut_insert {m : Type → Type} [Monad m] [Interruptible m] (ne : line ≠ n)
    (dev : Device m) :
    carryOut (program.insert n entry) dev line = program.carryOut dev line := by
  rw [carryOut, carryOut, fetch, fetch, statement_insert_of_ne ne]

/-! ## The order of the lines -/

/-- Where one way leads to `next`, the other leads there as well, or to line `n` and from there on
to `next`. -/
def Passes (program : Program) (n : LineNumber) (next next' : Option LineNumber) : Prop :=
  next' = next ∨ next' = some n ∧ program.next? n = next

variable (unused : ¬ program.Mentions n)

include unused

theorem ne_of_unused (mentioned : program.Mentions m) : m ≠ n := by
  rintro rfl
  exact unused mentioned

/-- Above a bound, the first line is the same as before, or it is the new line, which the old one
follows. -/
theorem passes_find? {p : LineNumber → Bool} (upward : ∀ k m, p k = true → k < m → p m = true) :
    Passes (program.insert n entry) n
      ((program.toList.find? fun entry => p entry.1).map (·.1))
      (((program.insert n entry).toList.find? fun entry => p entry.1).map (·.1)) := by
  cases found : ((program.insert n entry).toList.find? fun entry => p entry.1).map (·.1) with
  | none =>
    refine .inl (find?_eq_none_iff.2 fun m stored => ?_).symm
    exact find?_eq_none_iff.1 found m (contains_insert.2 (.inr stored))
  | some m =>
    obtain ⟨⟨held, isKind⟩, least⟩ := find?_eq_some_iff.1 found
    rcases contains_insert.1 held with rfl | stored
    · refine .inr ⟨rfl, ?_⟩
      cases old : (program.toList.find? fun entry => p entry.1).map (·.1) with
      | none =>
        refine next?_eq_none_iff.2 fun k held => Nat.le_of_not_lt fun above => ?_
        have stored := (contains_insert.1 held).resolve_left (Nat.ne_of_gt above)
        have other := find?_eq_none_iff.1 old k stored
        rw [upward m k isKind above] at other
        cases other
      | some k =>
        obtain ⟨⟨stored, isKind'⟩, least'⟩ := find?_eq_some_iff.1 old
        have above : m < k := Nat.lt_of_le_of_ne (least ⟨contains_insert.2 (.inr stored), isKind'⟩)
          (ne_of_unused unused (.inl stored)).symm
        refine next?_eq_some_iff.2 ⟨⟨contains_insert.2 (.inr stored), above⟩, ?_⟩
        rintro other ⟨held, above⟩
        have stored := (contains_insert.1 held).resolve_left (Nat.ne_of_gt above)
        exact least' ⟨stored, upward m other isKind above⟩
    · refine .inl (find?_eq_some_iff.2 ⟨⟨stored, isKind⟩, ?_⟩).symm
      rintro k ⟨stored, isKind⟩
      exact least ⟨contains_insert.2 (.inr stored), isKind⟩

theorem passes_first? :
    Passes (program.insert n entry) n program.first? (program.insert n entry).first? := by
  rw [first?_eq_find?, first?_eq_find?]
  exact passes_find? unused (p := fun _ => true) fun _ _ _ _ => rfl

theorem passes_next? (after : LineNumber) :
    Passes (program.insert n entry) n (program.next? after)
      ((program.insert n entry).next? after) := by
  refine passes_find? unused (p := fun k => decide (after < k)) fun k m above lt => ?_
  exact decide_eq_true (Nat.lt_trans (of_decide_eq_true above) lt)

/-! ## Where the other lines lead -/

omit unused

variable {t : Transfer} (elsewhere : t ≠ .jump n)

include elsewhere

theorem follow?_insert_error {e : Error} (fails : program.follow? line t = .error e) :
    follow? (program.insert n entry) line t = .error e := by
  obtain ⟨target, rfl, absent, rfl⟩ := jump_of_follow? fails
  have other : target ≠ n := fun same => elsewhere (congrArg Transfer.jump same)
  simp only [follow?, contains_insert_of_ne other, absent]
  rfl

include unused

theorem passes_follow? {next : Option LineNumber} (follows : program.follow? line t = .ok next) :
    ∃ next', follow? (program.insert n entry) line t = .ok next' ∧
      Passes (program.insert n entry) n next next' := by
  cases t with
  | next =>
    cases follows
    exact ⟨_, rfl, passes_next? unused line⟩
  | jump target =>
    refine ⟨next, ?_, .inl rfl⟩
    have other : target ≠ n := fun same => elsewhere (congrArg Transfer.jump same)
    rw [← follows]
    simp only [follow?, contains_insert_of_ne other]
  | halt =>
    cases follows
    exact ⟨_, rfl, .inl rfl⟩

end Program

end LineBasic
