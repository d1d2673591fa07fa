import LineBasic.Proofs.Run.Determined
import LineBasic.Proofs.Session.Edit

/-!
# What a history comes to

In a session lines are typed in and the program is run, in any order. Of all that has been typed in,
the last edit of each line alone decides what the program is; what was refused, what has been
replaced since, and the runs in between have left no trace in it. And a run shows nothing but what
the program, the mode and the device make of it, whatever happened in the session before.

Results:
1. `Entered.program`: the runs in between have no part in what typing in comes to.
2. `Entered.text_eq`, `Entered.same_program`: the last edit of each line decides.
3. `outcome_determined`: what determines a session, and its runs.
-/

namespace LineBasic

namespace Session

/-- The sessions that come about when some texts are typed in one after the other, and the program is
run before, between and behind them, on any devices and with any outcome. -/
inductive Entered : List String → Session → Prop
  | new (level : Level) : Entered [] (.new level)
  | enter {texts : List String} {session : Session} (s : String) :
      Entered texts session → Entered (texts ++ [s]) (session.enter s).2
  | run {texts : List String} {session : Session} {σ : Type} (dev : Device (StateM (Host σ)))
      (mode : Mode) (bound : Nat) (host : Host σ) :
      Entered texts session → Entered texts (session.run dev mode bound host).1.2

/-- A text is taken in as an edit of a line, in whatever session. -/
theorem concerns_iff_enter (session : Session) (n : LineNumber) (s : String) :
    Edit.concerns n s = true ↔
      (session.enter s).1 = .ok () ∧ ∃ line, Line.ofText s = .ok line ∧ line.number = some n := by
  rw [enter_fst, Edit.concerns_iff]
  constructor
  · rintro ⟨entry, asked⟩
    obtain ⟨line, known, numbered, _⟩ := Edit.stored?_cases (Edit.concerns_iff.2 ⟨entry, asked⟩)
    exact ⟨by rw [asked]; rfl, line, known, numbered⟩
  · rintro ⟨taken, line, known, numbered⟩
    unfold Edit.ofText at taken ⊢
    rw [known] at taken ⊢
    cases asked : Edit.ofLine line with
    | error e =>
      simp only [asked] at taken
      cases taken
    | ok edit =>
      obtain ⟨number, entry⟩ := edit
      obtain ⟨found, _⟩ := Edit.ofLine_eq_ok_iff.1 asked
      cases numbered.symm.trans found
      exact ⟨entry, asked⟩

/-- A line that is typed in changes the program at its number only. -/
theorem find?_enter_of_ne {session : Session} {s : String} {line : Line} {n k : LineNumber}
    (known : Line.ofText s = .ok line) (numbered : line.number = some n) (other : k ≠ n) :
    (session.enter s).2.program.find? k = session.program.find? k := by
  rw [program_enter_eq, Program.find?_afterText, if_neg]
  intro concerned
  obtain ⟨_, line', known', numbered'⟩ := (concerns_iff_enter session k s).1 concerned
  cases known.symm.trans known'
  cases numbered.symm.trans numbered'
  exact other rfl

namespace Entered

variable {texts : List String} {session : Session} {n : LineNumber} {s : String}

/-- Runs have no part in what typing in comes to. -/
theorem program (entered : Entered texts session) :
    session.program = texts.foldl Program.afterText .empty := by
  induction entered with
  | new => rfl
  | enter s _ ih => rw [program_enter_eq, ih, List.foldl_append, List.foldl_cons, List.foldl_nil]
  | run dev mode bound host _ ih => rw [program_run, ih]

/-- What is stored has been left by the last edit of the line. -/
theorem find?_eq (entered : Entered texts session) (n : LineNumber) :
    session.program.find? n = (Edit.last? texts n).bind Edit.stored? := by
  rw [entered.program, Program.find?_typed]
  cases Edit.last? texts n <;> rfl

/-- A line is stored if its last edit has statement text. -/
theorem contains_iff (entered : Entered texts session) (n : LineNumber) :
    session.program.contains n ↔
      ∃ s line, Edit.last? texts n = some s ∧ Line.ofText s = .ok line ∧ line.isEmpty = false := by
  rw [SortedMap.contains, entered.find?_eq]
  cases last : Edit.last? texts n with
  | none => simp
  | some s =>
    obtain ⟨line, known, _, ⟨empty, stored⟩ | ⟨full, statement, _, stored⟩⟩ :=
      Edit.stored?_cases (Edit.concerns_of_last? last)
    · simp [stored, known, empty]
    · simp [stored, known, full]

/-- Then its text is that of the edit, up to the white space at the end. -/
theorem text_eq (entered : Entered texts session) (stored : session.program.contains n)
    (last : Edit.last? texts n = some s) :
    session.program.text n = String.ofList (Text.trimEnd s.toList) := by
  rw [SortedMap.contains, entered.find?_eq, last, Option.bind_some] at stored
  obtain ⟨line, known, _, ⟨_, absent⟩ | ⟨_, statement, _, left⟩⟩ :=
    Edit.stored?_cases (Edit.concerns_of_last? last)
  · rw [absent] at stored
    cases stored
  · rw [Program.text, entered.find?_eq, last, Option.bind_some, left]
    exact (Line.ofText_eq_ok_iff.1 known).1

/-- Histories with the same last edits come to the same program. -/
theorem same_program {texts' : List String} {session' : Session} (entered : Entered texts session)
    (entered' : Entered texts' session')
    (same : ∀ n, Edit.last? texts' n = Edit.last? texts n) : session'.program = session.program := by
  refine SortedMap.ext_find? fun n => ?_
  rw [entered.find?_eq, entered'.find?_eq, same]

end Entered

/-- What determines a session, and its runs. Whether a text is taken in depends on nothing but the
text. When texts have been typed in, with runs in between, the last that was taken in as an edit of a
line decides whether the line is stored, and its text; so edits of different lines commute. And runs
of the same program on devices that behave the same show the same, whatever has been left behind in
the sessions, and whether or not an interrupt was asked for before. -/
theorem outcome_determined :
    (∀ (left right : Session) (s : String), (left.enter s).1 = (right.enter s).1) ∧
    (∀ (session : Session) (n : LineNumber) (s : String),
      Edit.concerns n s = true ↔
        (session.enter s).1 = .ok () ∧ ∃ line, Line.ofText s = .ok line ∧ line.number = some n) ∧
    (∀ texts session, Entered texts session → ∀ n,
      (session.program.contains n ↔ ∃ s line,
        Edit.last? texts n = some s ∧ Line.ofText s = .ok line ∧ line.isEmpty = false) ∧
      (session.program.contains n → ∀ s, Edit.last? texts n = some s →
        session.program.text n = String.ofList (Text.trimEnd s.toList))) ∧
    (∀ texts session texts' session', Entered texts session → Entered texts' session' →
      (∀ n, Edit.last? texts' n = Edit.last? texts n) → session'.program = session.program) ∧
    (∀ (session : Session) (s t : String),
      (∀ n, Edit.concerns n s = true → Edit.concerns n t = false) →
      ((session.enter s).2.enter t).2.program = ((session.enter t).2.enter s).2.program) ∧
    (∀ (σ τ : Type) (a : Device (StateM (Host σ))) (b : Device (StateM (Host τ)))
      (left right : Session) (r : σ) (s : τ) (i j : Bool) (mode : Mode) (bound : Nat),
      right.program = left.program → a.Same ⟨r, false⟩ b ⟨s, false⟩ →
      let first := left.report a mode bound ⟨r, i⟩
      let second := right.report b mode bound ⟨s, j⟩
      second.ending = first.ending ∧ second.calls.map Call.plain = first.calls.map Call.plain ∧
        second.session.memory.vars = first.session.memory.vars) := by
  refine ⟨fun left right s => ?_, concerns_iff_enter, fun texts session entered n => ?_,
    fun _ _ _ _ entered entered' => entered.same_program entered', fun session s t apart => ?_, ?_⟩
  · rw [enter_fst, enter_fst]
  · exact ⟨entered.contains_iff n, fun stored s last => entered.text_eq stored last⟩
  · simp only [program_enter_eq]
    exact Program.afterText_comm apart session.program
  · intro σ τ a b left right r s i j mode bound program same
    exact same_report program same mode bound i j

/-- A line that was refused, replaced and run meanwhile, and one that was deleted. A run that was
interrupted before it has left its mark in one of the sessions, and the runs show the same. -/
theorem outcome_determined_interrupted :
    let texts := ["10 X = 1", "20 END", "10 PRINT", "10 GOTO 10 ", "20"]
    let dev : Device (StateM (Host Unit)) :=
      ⟨fun _ => pure (.ok ()), fun _ => pure (.ok ""), fun _ => pure (.ok true),
        fun _ host => (.ok (), { host with interrupted := true })⟩
    let first := ((((Session.new .warning).enter "10 X = 1").2.enter "20 END").2.run dev .run 5
      ⟨(), false⟩).1.2
    let session := (((first.enter "10 PRINT").2.enter "10 GOTO 10 ").2.enter "20").2
    let other := ((Session.new .debug).enter "10 GOTO 10").2
    Entered texts session ∧ first.memory.vars ≠ .empty ∧
      session.program.contains 10 ∧ session.program.text 10 = "10 GOTO 10" ∧
      ¬ session.program.contains 20 ∧ other.program = session.program ∧
      (other.report dev .run 5 ⟨(), true⟩).ending =
        (session.report dev .run 5 ⟨(), false⟩).ending := by
  intro texts dev first session other
  have entered : Entered texts session :=
    .enter _ (.enter _ (.enter _ (.run dev _ _ _ (.enter _ (.enter _ (.new _))))))
  obtain ⟨_, _, stored, _, _, determined⟩ := outcome_determined
  have last : Edit.last? texts 10 = some "10 GOTO 10 " := by decide +kernel
  have here : session.program.contains 10 := by decide +kernel
  have program : other.program = session.program := by decide +kernel
  exact ⟨entered, by decide +kernel, here, (stored _ _ entered 10).2 here _ last,
    by decide +kernel, program,
    (determined _ _ dev dev session other () () false true .run 5 program (.refl _ _)).1⟩

end Session

end LineBasic
