import LineBasic.Proofs.Program.Order
import LineBasic.Proofs.Run

/-!
# Renumbering

A program is renumbered when its lines get other numbers and keep their order, and the statements
that jump to a line are changed with it. A jump to a line that is not stored is changed as well: the
new number keeps its place among the others, so that it is not stored either.

Results:
1. `Statement.perform_renumber`: what a renumbered statement does.
2. `Renumbers.first?`, `Renumbers.next?`: the order of the lines is kept.
3. `Renumbers.follow?_ok`, `Renumbers.follow?_error`: where a renumbered line leads.
4. `renumbers_renumber`: every program can be renumbered.
-/

namespace LineBasic

variable {f : LineNumber → LineNumber}

/-- A transfer when the lines have other numbers. -/
def Transfer.renumber (f : LineNumber → LineNumber) : Transfer → Transfer
  | next => next
  | jump target => jump (f target)
  | halt => halt

namespace Statement

/-- A statement when the lines have other numbers. -/
def renumber (f : LineNumber → LineNumber) : Statement → Statement
  | remark text => remark text
  | assign name value => assign name value
  | print literal values => print literal values
  | input name => input name
  | jump target => jump (f target)
  | branch left comparison right target => branch left comparison right (f target)
  | stop => stop

/-- A renumbered statement does the same, and leads to the new number. -/
theorem perform_renumber {m : Type → Type} [Monad m] [LawfulMonad m] (dev : Device m)
    (statement : Statement) :
    (statement.renumber f).perform dev = Transfer.renumber f <$> statement.perform dev := by
  cases statement with
  | remark | jump | stop => simp [renumber, perform, Transfer.renumber]
  | assign | print => simp [renumber, perform, Transfer.renumber, map_bind]
  | input name =>
    simp only [renumber, perform, map_bind]
    congr 1
    funext reply
    cases Number.read reply <;> simp [Transfer.renumber]
  | branch left comparison right target =>
    simp only [renumber, perform, map_bind, map_pure]
    congr 1
    funext a
    congr 1
    funext b
    cases comparison.holds a b <;> rfl

end Statement

/-- An entry when the lines have other numbers, with its text in the standard form. -/
def Entry.renumber (f : LineNumber → LineNumber) (number : LineNumber) (entry : Entry) : Entry :=
  let statement := entry.statement.map (Statement.renumber f)
  ⟨toString (f number) ++ (statement.map fun s => " " ++ s.text).getD "", statement⟩

namespace Program

/-- `program.Renumbers f other`: the other program has the statements of the one, with other
numbers for the lines. -/
structure Renumbers (program : Program) (f : LineNumber → LineNumber) (other : Program) :
    Prop where
  /-- The numbers keep their order, also those of lines that are only jumped to. -/
  increasing : StrictMonoOn f {n | program.Mentions n}
  contains_iff : ∀ m, other.contains m = true ↔ ∃ n, program.contains n = true ∧ f n = m
  /-- Every line has a statement, which is that of the line with the new number. -/
  statement : ∀ n, program.contains n = true → ∃ s, program.statement n = .ok s ∧
    other.statement (f n) = .ok (s.renumber f)

namespace Renumbers

variable {program other : Program} {line after target : LineNumber}
  (moved : program.Renumbers f other)

include moved

theorem contains (mentioned : program.Mentions target) :
    other.contains (f target) = program.contains target := by
  rw [Bool.eq_iff_iff, moved.contains_iff]
  constructor
  · rintro ⟨n, stored, same⟩
    rwa [← moved.increasing.injOn (.inl stored) mentioned same]
  · exact fun stored => ⟨target, stored, rfl⟩

/-- When the new numbers of one kind are those of another, the first line of the one becomes the
first of the other. -/
theorem map_find? {p q : LineNumber → Bool}
    (kept : ∀ n, program.contains n = true → q (f n) = p n) :
    (other.toList.find? fun entry => q entry.1).map (·.1) =
      ((program.toList.find? fun entry => p entry.1).map (·.1)).map f := by
  cases found : (program.toList.find? fun entry => p entry.1).map (·.1) with
  | none =>
    refine find?_eq_none_iff.2 fun m held => ?_
    obtain ⟨n, stored, rfl⟩ := (moved.contains_iff m).1 held
    rw [kept n stored, find?_eq_none_iff.1 found n stored]
  | some line =>
    obtain ⟨⟨stored, isKind⟩, least⟩ := find?_eq_some_iff.1 found
    refine find?_eq_some_iff.2 ⟨⟨(moved.contains_iff _).2 ⟨line, stored, rfl⟩, ?_⟩, ?_⟩
    · rw [kept line stored, isKind]
    · rintro m ⟨held, isKind'⟩
      obtain ⟨n, stored', rfl⟩ := (moved.contains_iff m).1 held
      rw [kept n stored'] at isKind'
      exact moved.increasing.monotoneOn (.inl stored) (.inl stored') (least ⟨stored', isKind'⟩)

theorem first? : other.first? = program.first?.map f := by
  rw [first?_eq_find?, first?_eq_find?]
  exact moved.map_find? (p := fun _ => true) (q := fun _ => true) fun _ _ => rfl

theorem next? (stored : program.contains after = true) :
    other.next? (f after) = (program.next? after).map f := by
  refine moved.map_find? (p := fun n => decide (after < n)) (q := fun m => decide (f after < m)) ?_
  intro n stored'
  rw [decide_eq_decide]
  exact moved.increasing.lt_iff_lt (.inl stored) (.inl stored')

variable {t : Transfer} (mentioned : ∀ target, t = .jump target → program.Mentions target)

include mentioned

/-- A renumbered line leads to the new number of the line that it led to. -/
theorem follow?_ok (stored : program.contains line = true) {next : Option LineNumber}
    (follows : program.follow? line t = .ok next) :
    other.follow? (f line) (t.renumber f) = .ok (next.map f) := by
  cases t with
  | next =>
    cases follows
    exact congrArg Except.ok (moved.next? stored)
  | jump target =>
    simp only [Program.follow?, Transfer.renumber, moved.contains (mentioned target rfl)] at follows ⊢
    split at follows
    next known =>
      cases follows
      rw [if_pos known]
      rfl
    next => cases follows
  | halt =>
    cases follows
    rfl

/-- A jump that fails still fails, and names the new numbers. -/
theorem follow?_error {e : Error} (fails : program.follow? line t = .error e) :
    ∃ target, e = .undefinedTarget line target ∧
      other.follow? (f line) (t.renumber f) = .error (.undefinedTarget (f line) (f target)) := by
  obtain ⟨target, rfl, absent, rfl⟩ := jump_of_follow? fails
  refine ⟨target, rfl, ?_⟩
  simp only [Program.follow?, Transfer.renumber, moved.contains (mentioned target rfl), absent]
  rfl

end Renumbers

/-! ## Renumbering a program -/

/-- Every line under its new number, with its statement in the standard form. -/
def renumber (f : LineNumber → LineNumber) (program : Program) : Program :=
  (program.toList.map fun entry => (f entry.1, entry.2.renumber f entry.1)).foldl
    (fun other entry => other.insert entry.1 entry.2) .empty

variable {program : Program}

theorem find?_renumber_eq_some_iff (increasing : StrictMonoOn f {n | program.Mentions n})
    {m : LineNumber} {entry : Entry} :
    (program.renumber f).find? m = some entry ↔
      ∃ n old, program.find? n = some old ∧ f n = m ∧ old.renumber f n = entry := by
  have sorted : (program.toList.map fun entry => (f entry.1, entry.2.renumber f entry.1)).Pairwise
      fun a b => a.1 < b.1 := by
    refine List.pairwise_map.2 (program.sorted.imp_of_mem fun {a b} left right lt => ?_)
    exact increasing (.inl (contains_iff.2 ⟨_, left⟩)) (.inl (contains_iff.2 ⟨_, right⟩)) lt
  rw [renumber, SortedMap.find?_foldl_insert sorted, SortedMap.find?_empty, Option.or_none]
  refine (SortedMap.find?_eq_some_iff ⟨_, sorted⟩).trans ?_
  simp only [SortedMap.find?_eq_some_iff, List.mem_map, Prod.exists, Prod.mk.injEq]

/-- A program whose lines all have statements can be renumbered. -/
theorem renumbers_renumber (increasing : StrictMonoOn f {n | program.Mentions n})
    (readable : ∀ n, program.contains n = true → ∃ s, program.statement n = .ok s) :
    program.Renumbers f (program.renumber f) where
  increasing := increasing
  contains_iff m := by
    simp only [SortedMap.contains, Option.isSome_iff_exists,
      find?_renumber_eq_some_iff increasing]
    constructor
    · rintro ⟨_, n, old, found, same, _⟩
      exact ⟨n, ⟨old, found⟩, same⟩
    · rintro ⟨n, ⟨old, found⟩, same⟩
      exact ⟨_, n, old, found, same, rfl⟩
  statement n stored := by
    obtain ⟨old, found⟩ := Option.isSome_iff_exists.1 stored
    obtain ⟨s, known⟩ := readable n stored
    refine ⟨s, known, ?_⟩
    have moved := (find?_renumber_eq_some_iff increasing).2 ⟨n, old, found, rfl, rfl⟩
    rw [statement, found, Option.bind_some] at known
    rw [statement, moved, Option.bind_some, Entry.renumber]
    cases attached : old.statement with
    | none =>
      rw [attached] at known
      cases known
    | some s' =>
      rw [attached] at known
      cases known
      rfl

end Program

end LineBasic
