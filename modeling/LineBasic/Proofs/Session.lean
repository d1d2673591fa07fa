import LineBasic.Proofs.Program
import LineBasic.Session

/-!
# The program of a session

Whatever is typed in, loaded, cleared and run, and whether it succeeds or fails: the program of a
session is one that lines and files alone bring about (`Reachable.program`). So every line of it
is as good as its text (`Entry.Faithful`), and no line waits for its statement.

Results:
1. `Entry.Typed.faithful`: what was typed as it stands is as good as its text.
2. `Reachable.program`: runs have no part in what a program is.
3. `stored_faithful`: stored lines, and the lines that have a statement.
-/

namespace LineBasic

/-- An entry is as good as its text: the text has been trimmed and fits into a line, and it says
again what the number and the statement of the entry are. -/
structure Entry.Faithful (entry : Entry) (number : LineNumber) : Prop where
  positive : 1 ≤ number
  attached : entry.statement ≠ none
  short : entry.text.length ≤ 1024
  trimmed : ∀ c, entry.text.toList.getLast? = some c → Text.isSpace c = false
  reread : ∃ line statement, Line.ofText entry.text = .ok line ∧ line.isEmpty = false ∧
    line.number = some number ∧ line.statement = .ok statement ∧ entry.statement = some statement

theorem Entry.Typed.faithful {entry : Entry} {number : LineNumber} {s : String}
    (typed : entry.Typed number s) : entry.Faithful number := by
  obtain ⟨line, statement, known, numbered, full, readable, rfl⟩ := typed
  exact {
    positive := (Line.number_range known numbered).1
    attached := Option.some_ne_none statement
    short := Line.length_text_le known
    trimmed := fun _ => Line.last_text known
    reread := ⟨line, statement, Line.ofText_text known, full, numbered, readable, rfl⟩ }

namespace Session

/-- The sessions that come about when lines are typed in, files are loaded, all is cleared and the
program is run, in any order, on any device, and with any outcome. -/
inductive Reachable : Session → Prop
  | new (level : Level) : Reachable (.new level)
  | enter {session : Session} (s : String) :
      Reachable session → Reachable (session.enter s).2
  | load {session : Session} (s : String) :
      Reachable session → Reachable (session.load s).2
  | clear {session : Session} : Reachable session → Reachable session.clear
  | run {session : Session} {σ : Type} (dev : Device (StateM (Host σ))) (mode : Mode)
      (bound : Nat) (host : Host σ) :
      Reachable session → Reachable (session.run dev mode bound host).1.2

/-! ## What becomes of the program -/

theorem program_enter (session : Session) (s : String) :
    (session.enter s).2.program = session.program ∨
    ∃ line, Line.ofText s = .ok line ∧
      (session.enter s).2.program = (session.program.insertLine line).2 := by
  unfold enter
  cases known : Line.ofText s with
  | error e => exact .inl rfl
  | ok line => exact .inr ⟨line, rfl, rfl⟩

theorem program_load (session : Session) (s : String) :
    (session.load s).2.program = (session.program.load s).2 := by
  unfold load
  simp only [noteAll]
  split
  next program loaded => rw [loaded]
  next e program refused => rw [refused]

theorem program_run {σ : Type} (session : Session) (dev : Device (StateM (Host σ))) (mode : Mode)
    (bound : Nat) (host : Host σ) :
    (session.run dev mode bound host).1.2.program = session.program := rfl

/-- The program of a session is brought about by lines and files alone. -/
theorem Reachable.program {session : Session} (reachable : Reachable session) :
    session.program.Reachable fun _ => True := by
  induction reachable with
  | new => exact .empty
  | @enter session s _ ih =>
    rcases program_enter session s with kept | ⟨line, known, taken⟩
    · rw [kept]
      exact ih
    · rw [taken]
      exact .insert ih trivial known
  | load s _ ih =>
    rw [program_load]
    exact .load s ih
  | clear => exact .empty
  | run dev mode bound host _ ih =>
    rw [program_run]
    exact ih

/-! ## What is stored -/

/-- Every stored line is as good as its text, and exactly the lines that are not stored have no
statement. -/
theorem stored_faithful {session : Session} (reachable : Reachable session) :
    (∀ number entry, session.program.find? number = some entry → entry.Faithful number) ∧
    (∀ number, (∃ e, session.program.statement number = .error e) ↔
      session.program.find? number = none) := by
  have holds := reachable.program.holds fun _ _ => trivial
  have faithful : ∀ number entry, session.program.find? number = some entry →
      entry.Faithful number := by
    intro number entry found
    obtain ⟨_, _, typed⟩ := holds number entry found
    exact typed.faithful
  refine ⟨faithful, fun number => ?_⟩
  unfold Program.statement
  cases found : session.program.find? number with
  | none => exact iff_of_true ⟨_, rfl⟩ rfl
  | some entry =>
    obtain ⟨_, statement, _, _, _, _, attached⟩ := (faithful number entry found).reread
    rw [Option.bind_some, attached]
    simp

/-- A line that was replaced when a first attempt had been refused, and then run. -/
theorem stored_faithful_replaced :
    let typed := ((((Session.new .warning).enter "10 GOTO 10").2.enter "10 PRINT").2.enter
      "10 END ").2
    let dev : Device (StateM (Host Unit)) :=
      ⟨fun _ => pure (.ok ()), fun _ => pure (.ok ""), fun _ => pure (.ok true),
        fun _ => pure (.ok ())⟩
    let session := (typed.run dev .step 5 ⟨(), true⟩).1.2
    session.program.find? 10 = some ⟨"10 END", some .stop⟩ ∧
      (Entry.mk "10 END" (some .stop)).Faithful 10 := by
  intro typed dev session
  have stored : typed.program.find? 10 = some ⟨"10 END", some .stop⟩ := by decide +kernel
  have reachable : Reachable session := .run dev .step 5 _ (.enter _ (.enter _ (.enter _ (.new _))))
  have found : session.program.find? 10 = some ⟨"10 END", some .stop⟩ := stored
  exact ⟨found, (stored_faithful reachable).1 10 _ found⟩

end Session

end LineBasic
