import LineBasic.Proofs.Session.Edit

/-!
# Loading is typing in

A file is loaded as if its visible lines were typed into a new session, one after the other. If each
of them is taken in, the session has the program that they make and no variables; if not, program
and variables stay as they are, and the error is that of the first line that is refused. The error
says at which line of the file that was, unless it names a program line already.

Results:
1. `enterAll_fst_eq_ok_iff`, `program_enterAll`: what typing in a sequence of texts comes to.
2. `FileReading.ofLines_cases`: all that reading the lines of a file can come to.
3. `Session.load_eq_typed`: loading a file is typing in its lines.
-/

namespace LineBasic

/-! ## Typing in a sequence of texts -/

namespace Session

/-- Types in texts one after the other, up to the first that is refused. -/
def enterAll (session : Session) : List String → Except Error Unit × Session
  | [] => (.ok (), session)
  | s :: rest =>
    match session.enter s with
    | (.ok (), after) => after.enterAll rest
    | (.error e, after) => (.error e, after)

variable {session : Session} {texts : List String}

theorem enterAll_fst_eq_ok_iff :
    (session.enterAll texts).1 = .ok () ↔ ∀ s ∈ texts, ∃ edit, Edit.ofText s = .ok edit := by
  induction texts generalizing session with
  | nil => simp [enterAll]
  | cons s rest ih =>
    have first := session.enter_fst s
    unfold enterAll
    generalize session.enter s = entered at first ⊢
    obtain ⟨_, after⟩ := entered
    cases asked : Edit.ofText s with
    | error e =>
      rw [asked] at first
      cases first
      simp [asked]
    | ok edit =>
      rw [asked] at first
      cases first
      simp [ih, asked]

theorem program_enterAll (taken : (session.enterAll texts).1 = .ok ()) :
    (session.enterAll texts).2.program = texts.foldl Program.afterText session.program := by
  induction texts generalizing session with
  | nil => rfl
  | cons s rest ih =>
    rw [List.foldl_cons, ← program_enter_eq]
    unfold enterAll at taken ⊢
    generalize session.enter s = entered at taken ⊢
    obtain ⟨_ | _, after⟩ := entered
    · cases taken
    · exact ih taken

end Session

/-! ## Reading the lines of a file -/

/-- Something is left of a text when it has been trimmed. -/
def Text.isVisible (s : String) : Bool := Text.trim s.toList ≠ []

theorem Text.isBlankLine_eq (s : String) : Text.isBlankLine s = !Text.isVisible s := by
  rw [isVisible, Bool.eq_iff_iff, isBlankLine, ← trim_eq_nil_iff]
  simp

/-- An error of a statement names the line of the statement. -/
theorem Line.line_of_statement {line : Line} {e : Error} (unreadable : line.statement = .error e) :
    e.line = line.number := by
  unfold Line.statement Statement.ofTokens at unreadable
  split at unreadable
  · cases unreadable
  · cases unreadable
    rfl

namespace FileReading

/-- The error of a line of a file that is refused, from the error of typing it in. -/
def refusal (fileLine : Nat) (s : String) (e : Error) : Error :=
  match Line.ofText s with
  | .ok line => if line.isDirect then .directInFile fileLine else e.orAtLine fileLine
  | .error _ => e.orAtLine fileLine

variable {program : Program} {fileLine : Nat} {s : String} {rest : List String} {e : Error}

/-- A line without a number is reported at its place in the file. -/
theorem refusal_direct (direct : ∃ line, Line.ofText s = .ok line ∧ line.number = none) :
    refusal fileLine s e = .directInFile fileLine := by
  obtain ⟨line, known, unnumbered⟩ := direct
  simp [refusal, known, Line.isDirect, unnumbered]

theorem refusal_of_not_direct
    (notDirect : ¬ ∃ line, Line.ofText s = .ok line ∧ line.number = none) :
    refusal fileLine s e = e.orAtLine fileLine := by
  unfold refusal
  cases known : Line.ofText s with
  | error e => rfl
  | ok line =>
    cases numbered : line.number with
    | none => exact absurd ⟨line, known, numbered⟩ notDirect
    | some n => simp [Line.isDirect, numbered]

/-- The error of a statement names its program line, and that stays. -/
theorem refusal_numbered {line : Line} {n : LineNumber} (asked : Edit.ofText s = .error e)
    (known : Line.ofText s = .ok line) (numbered : line.number = some n) :
    refusal fileLine s e = e ∧ e.line = some n := by
  unfold Edit.ofText at asked
  rw [known] at asked
  have named : e.line = some n :=
    (Line.line_of_statement (Edit.statement_of_ofLine numbered asked)).trans numbered
  simp [refusal, known, Line.isDirect, numbered, Error.orAtLine, named]

theorem ofLines_blank (blank : Text.isVisible s = false) :
    ofLines program fileLine (s :: rest) = ofLines program (fileLine + 1) rest := by
  rw [ofLines, Text.isBlankLine_eq, blank]
  rfl

/-- A line that is refused ends the reading. -/
theorem error_ofLines_refused (visible : Text.isVisible s = true)
    (asked : Edit.ofText s = .error e) :
    (ofLines program fileLine (s :: rest)).error = some (refusal fileLine s e) := by
  rw [ofLines, Text.isBlankLine_eq, visible]
  unfold refusal
  unfold Edit.ofText at asked
  cases known : Line.ofText s with
  | error e' =>
    rw [known] at asked
    cases asked
    rfl
  | ok line =>
    rw [known] at asked
    cases direct : line.isDirect with
    | true => simp [direct]
    | false => simp [direct, Edit.insertLine_eq, asked]

/-- A line that is taken in makes its edit, and the reading goes on. -/
theorem ofLines_taken (program : Program) (fileLine : Nat) (rest : List String) {edit : Edit}
    (visible : Text.isVisible s = true) (asked : Edit.ofText s = .ok edit) :
    let reading := ofLines (program.afterText s) (fileLine + 1) rest
    (ofLines program fileLine (s :: rest)).error = reading.error ∧
      (ofLines program fileLine (s :: rest)).program = reading.program := by
  rw [ofLines, Text.isBlankLine_eq, visible, Program.afterText, asked]
  unfold Edit.ofText at asked
  cases known : Line.ofText s with
  | error e =>
    rw [known] at asked
    cases asked
  | ok line =>
    rw [known] at asked
    have notDirect : line.isDirect = false := by
      rw [Line.isDirect, (Edit.ofLine_eq_ok_iff.1 asked).1]
      rfl
    simp [notDirect, Edit.insertLine_eq, asked]

/-- All that reading the lines of a file can come to: each visible line is taken in, or one of them
is refused and ends the reading. -/
theorem ofLines_cases (program : Program) (fileLine : Nat) (texts : List String) :
    let reading := ofLines program fileLine texts
    ((∀ s ∈ texts.filter Text.isVisible, ∃ edit, Edit.ofText s = .ok edit) ∧
      reading.error = none ∧
      reading.program = (texts.filter Text.isVisible).foldl Program.afterText program) ∨
    (∃ before s behind e, texts = before ++ s :: behind ∧ Text.isVisible s = true ∧
      Edit.ofText s = .error e ∧
      (∀ t ∈ before.filter Text.isVisible, ∃ edit, Edit.ofText t = .ok edit) ∧
      reading.error = some (refusal (fileLine + before.length) s e)) := by
  induction texts generalizing program fileLine with
  | nil => exact .inl ⟨nofun, rfl, rfl⟩
  | cons s rest ih =>
    intro reading
    cases visible : Text.isVisible s with
    | false =>
      have skipped : reading = ofLines program (fileLine + 1) rest := ofLines_blank visible
      rw [skipped]
      rcases ih program (fileLine + 1) with taken | ⟨before, t, behind, e, rfl, refused⟩
      · exact .inl (by simpa [visible] using taken)
      · refine .inr ⟨s :: before, t, behind, e, rfl, ?_⟩
        have place : fileLine + (before.length + 1) = fileLine + 1 + before.length := by omega
        simpa [visible, place] using refused
    | true =>
      cases asked : Edit.ofText s with
      | error e =>
        exact .inr ⟨[], s, rest, e, rfl, visible, asked, nofun, error_ofLines_refused visible asked⟩
      | ok edit =>
        obtain ⟨sameError, sameProgram⟩ :=
          ofLines_taken program fileLine rest visible asked
        rw [show reading.error = _ from sameError, show reading.program = _ from sameProgram]
        rcases ih (program.afterText s) (fileLine + 1) with
          taken | ⟨before, t, behind, e, rfl, refused⟩
        · exact .inl (by simpa [visible, asked] using taken)
        · refine .inr ⟨s :: before, t, behind, e, rfl, ?_⟩
          have place : fileLine + (before.length + 1) = fileLine + 1 + before.length := by omega
          simpa [visible, asked, place] using refused

end FileReading

/-! ## Loading a file -/

namespace Session

/-- What loading a file comes to. -/
theorem load_cases (session : Session) (s : String) :
    let reading := FileReading.ofText s
    (reading.error = none ∧ (session.load s).1 = .ok () ∧
      (session.load s).2.program = reading.program ∧
      (session.load s).2.memory.vars = .empty) ∨
    (∃ e, reading.error = some e ∧ (session.load s).1 = .error e ∧
      (session.load s).2.program = session.program ∧
      (session.load s).2.memory.vars = session.memory.vars) := by
  simp only [load, noteAll, Program.load]
  cases (FileReading.ofText s).error with
  | none => exact .inl ⟨rfl, rfl, rfl, rfl⟩
  | some e => exact .inr ⟨e, rfl, rfl, rfl, rfl⟩

/-- Loading a file compared with typing in its visible lines: both succeed, or neither does. -/
theorem load_typed_cases (session other : Session) (s : String) :
    let lines := (Text.splitLines s.toList).map String.ofList
    let typed := other.enterAll (lines.filter Text.isVisible)
    let loaded := session.load s
    (typed.1 = .ok () ∧ loaded.1 = .ok () ∧ loaded.2.memory.vars = .empty ∧
      loaded.2.program = (lines.filter Text.isVisible).foldl Program.afterText .empty) ∨
    (typed.1 ≠ .ok () ∧ loaded.2.program = session.program ∧
      loaded.2.memory.vars = session.memory.vars ∧
      ∃ before text behind e, lines = before ++ text :: behind ∧ Text.isVisible text = true ∧
        Edit.ofText text = .error e ∧ (other.enterAll (before.filter Text.isVisible)).1 = .ok () ∧
        loaded.1 = .error (FileReading.refusal (before.length + 1) text e)) := by
  intro lines typed loaded
  rcases FileReading.ofLines_cases .empty 1 lines with
    ⟨taken, noError, program⟩ | ⟨before, text, behind, e, split, visible, asked, earlier, error⟩
  · rcases session.load_cases s with ⟨_, succeeds, read, vars⟩ | ⟨e, failed, _⟩
    · exact .inl ⟨enterAll_fst_eq_ok_iff.2 taken, succeeds, vars, read.trans program⟩
    · cases noError.symm.trans failed
  · rcases session.load_cases s with ⟨noError, _⟩ | ⟨e', failed, fails, program, vars⟩
    · cases noError.symm.trans error
    · cases error.symm.trans failed
      have refused : typed.1 ≠ .ok () := by
        intro typedIn
        obtain ⟨edit, taken⟩ := enterAll_fst_eq_ok_iff.1 typedIn text (by simp [split, visible])
        cases asked.symm.trans taken
      rw [Nat.add_comm] at fails
      exact .inr ⟨refused, program, vars, before, text, behind, e, split, visible, asked,
        enterAll_fst_eq_ok_iff.2 earlier, fails⟩

/-- Loading a file is typing in its visible lines. It succeeds just if each of them is taken in by a
new session, and then the session has the program of that session and no variables. If one of them
is refused, program and variables stay as they are, and the first that is refused decides the error:
a line without a number is reported at its place in the file; for any other the error is that of
typing it in, which is reported there unless it names a program line. -/
theorem load_eq_typed (session : Session) (s : String) (level : Level) :
    let lines := (Text.splitLines s.toList).map String.ofList
    let typed := (Session.new level).enterAll (lines.filter Text.isVisible)
    let loaded := session.load s
    (loaded.1 = .ok () ↔ typed.1 = .ok ()) ∧
    (loaded.1 = .ok () →
      loaded.2.program = typed.2.program ∧ loaded.2.memory.vars = .empty ∧
      ∀ n, loaded.2.program.find? n =
        (Edit.last? (lines.filter Text.isVisible) n).bind Edit.stored?) ∧
    (∀ e, loaded.1 = .error e →
      loaded.2.program = session.program ∧ loaded.2.memory.vars = session.memory.vars ∧
      ∃ before text behind refusal, lines = before ++ text :: behind ∧
        Text.isVisible text = true ∧
        ((Session.new level).enterAll (before.filter Text.isVisible)).1 = .ok () ∧
        (∀ other : Session, (other.enter text).1 = .error refusal) ∧
        ((∃ line, Line.ofText text = .ok line ∧ line.number = none) →
          e = .directInFile (before.length + 1)) ∧
        ((¬ ∃ line, Line.ofText text = .ok line ∧ line.number = none) →
          e = refusal.orAtLine (before.length + 1)) ∧
        (∀ line n, Line.ofText text = .ok line → line.number = some n →
          e = refusal ∧ e.line = some n)) := by
  intro lines typed loaded
  rcases session.load_typed_cases (.new level) s with
    ⟨typedIn, succeeds, vars, program⟩ |
    ⟨refused, program, vars, before, text, behind, refusal, split, visible, asked, earlier, fails⟩
  · have same : loaded.2.program = typed.2.program :=
      program.trans (program_enterAll typedIn).symm
    refine ⟨iff_of_true succeeds typedIn, fun _ => ⟨same, vars, fun n => ?_⟩, fun e fails => ?_⟩
    · rw [show loaded.2.program = _ from program, Program.find?_typed]
      cases Edit.last? (lines.filter Text.isVisible) n <;> rfl
    · cases succeeds.symm.trans fails
  · have failsNot : loaded.1 ≠ .ok () := by
      intro succeeds
      cases fails.symm.trans succeeds
    refine ⟨iff_of_false failsNot refused, fun succeeds => absurd succeeds failsNot, ?_⟩
    intro e fails'
    cases fails.symm.trans fails'
    refine ⟨program, vars, before, text, behind, refusal, split, visible, earlier, fun other => ?_,
      FileReading.refusal_direct, FileReading.refusal_of_not_direct, fun line n known numbered => ?_⟩
    · rw [enter_fst, asked]
      rfl
    · obtain ⟨same, named⟩ := FileReading.refusal_numbered asked known numbered
      exact ⟨same, (congrArg Error.line same).trans named⟩

/-- The third line of a file cannot be read, though the line behind it has no number: its error keeps
the number of the program line, and the program that was there stays. -/
theorem load_eq_typed_refused :
    let session := ((Session.new .warning).enter "10 END").2
    let loaded := session.load "20 PRINT 1\n \n30 GOTO\nRUN"
    let e := (Error.expected "LINE NUMBER").atLine (some 30) |>.atColumn ⟨4, 4⟩
    loaded.1 = .error e ∧ loaded.2.program = session.program ∧
      loaded.2.program.find? 10 = some ⟨"10 END", some .stop⟩ := by
  intro session loaded e
  have fails : loaded.1 = .error e := by decide +kernel
  have stored : session.program.find? 10 = some ⟨"10 END", some .stop⟩ := by decide +kernel
  obtain ⟨kept, _⟩ := (session.load_eq_typed _ .warning).2.2 e fails
  exact ⟨fails, kept, kept ▸ stored⟩

end Session

end LineBasic
