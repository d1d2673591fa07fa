import LineBasic.Proofs.Prompt
import LineBasic.Proofs.Statement.Attention

/-!
# Texts that are not taken in

A text that is typed in is refused for one of three reasons: it is no line, it is a line without a
number, or its statement cannot be read. All of them are errors of reading, and the error names the
line exactly if the number of the line is known. A text that is refused changes nothing at all; one
that is taken in changes the program at its own number, and nothing besides.

Results:
1. `Line.kind_of_ofText`: the errors in splitting up a text.
2. `Edit.refused_of_ofText`: why a text is refused.
3. `Session.enter_of_error`: a refused text changes nothing.
4. `Prompt.outcome_enter`: what comes of typing in a text.
-/

namespace LineBasic

variable {s : String} {e : Error} {line : Line} {n : LineNumber}

/-! ## 1. Texts that are no lines -/

namespace Line

/-- A number at the beginning of a line is refused like any line number. -/
theorem refusal_of_takeNumber {tokens : List Token} (failed : takeNumber tokens = .error e) :
    Refusal e (tokens.dropWhile Token.isBlank) := by
  unfold takeNumber at failed
  split at failed
  next numeral rest first =>
    rw [first]
    cases read : (Token.number numeral).lineNumber with
    | error e' =>
      rw [read] at failed
      cases failed
      exact .of_lineNumber read _
    | ok number =>
      simp only [read] at failed
      split at failed <;> cases failed
  next => cases failed

/-- The errors in splitting up a text are errors of reading, and name no line. -/
theorem kind_of_ofText (failed : ofText s = .error e) :
    e.code.kind = .reading ∧ e.line = none := by
  unfold ofText at failed
  simp only at failed
  split at failed
  next long =>
    cases failed
    exact ⟨rfl, rfl⟩
  next short =>
    split at failed
    next => cases failed
    next e' taken =>
      cases failed
      have refusal := refusal_of_takeNumber taken
      exact ⟨refusal.kind_eq, refusal.line_eq_none⟩

end Line

/-! ## 2. Texts that are refused -/

namespace Edit

/-- Why a text is refused, and with which error. -/
inductive Refused (s : String) : Error → Prop
  | unreadable {e : Error} (unknown : Line.ofText s = .error e) : Refused s e
  | direct {line : Line} (known : Line.ofText s = .ok line) (unnumbered : line.number = none) :
      Refused s (.of .illegalDirect)
  | malformed {line : Line} {n : LineNumber} {e : Error} (known : Line.ofText s = .ok line)
      (numbered : line.number = some n) (failed : line.statement = .error e) : Refused s e

theorem refused_of_ofText (asked : ofText s = .error e) : Refused s e := by
  unfold ofText at asked
  cases known : Line.ofText s with
  | error e' =>
    rw [known] at asked
    cases asked
    exact .unreadable known
  | ok line =>
    rw [known] at asked
    cases numbered : line.number with
    | none =>
      simp only [ofLine, numbered] at asked
      cases asked
      exact .direct known numbered
    | some n => exact .malformed known numbered (statement_of_ofLine numbered asked)

namespace Refused

theorem kind_eq (refused : Refused s e) : e.code.kind = .reading := by
  cases refused with
  | unreadable unknown => exact (Line.kind_of_ofText unknown).1
  | direct => rfl
  | malformed _ _ failed => exact (Statement.kind_of_ofTokens failed).1

/-- The error of a text that is no line is that of splitting it up. -/
theorem of_unknown {e' : Error} (refused : Refused s e) (unknown : Line.ofText s = .error e') :
    e = e' ∧ e.line = none := by
  cases refused with
  | unreadable unknown' =>
    cases unknown.symm.trans unknown'
    exact ⟨rfl, (Line.kind_of_ofText unknown).2⟩
  | direct known => cases unknown.symm.trans known
  | malformed known => cases unknown.symm.trans known

/-- A line without a number is refused for that. -/
theorem of_unnumbered (refused : Refused s e) (known : Line.ofText s = .ok line)
    (unnumbered : line.number = none) : e = .of .illegalDirect := by
  cases refused with
  | unreadable unknown => cases known.symm.trans unknown
  | direct => rfl
  | malformed known' numbered =>
    cases known.symm.trans known'
    cases unnumbered.symm.trans numbered

/-- Of a line with a number the statement is refused, and the error is at this number. -/
theorem of_numbered (refused : Refused s e) (known : Line.ofText s = .ok line)
    (numbered : line.number = some n) : line.statement = .error e ∧ e.line = some n := by
  cases refused with
  | unreadable unknown => cases known.symm.trans unknown
  | direct known' unnumbered =>
    cases known.symm.trans known'
    cases numbered.symm.trans unnumbered
  | malformed known' _ failed =>
    cases known.symm.trans known'
    exact ⟨failed, (Line.line_of_statement failed).trans numbered⟩

end Refused

end Edit

/-! ## 3. What becomes of the session -/

/-- Of a line that is refused nothing is noted. -/
theorem Program.recordsOf_of_error (program : Program) (asked : Edit.ofLine line = .error e) :
    program.recordsOf line = [] := by
  unfold recordsOf
  cases numbered : line.number with
  | none => rfl
  | some n =>
    have failed := Edit.statement_of_ofLine numbered asked
    have full : line.isEmpty = false := by
      cases empty : line.isEmpty with
      | false => rfl
      | true => simp [Edit.ofLine, numbered, empty] at asked
    simp only [full, failed, Bool.false_eq_true, if_false]

namespace Session

variable {session : Session}

theorem refused_of_enter (refused : (session.enter s).1 = .error e) : Edit.Refused s e := by
  rw [enter_fst] at refused
  cases asked : Edit.ofText s with
  | ok edit =>
    rw [asked] at refused
    cases refused
  | error e' =>
    rw [asked] at refused
    cases refused
    exact Edit.refused_of_ofText asked

/-- A text that is refused leaves the whole session as it is, the log included. -/
theorem enter_of_error (refused : (session.enter s).1 = .error e) :
    (session.enter s).2 = session := by
  rw [enter_fst] at refused
  unfold Edit.ofText at refused
  unfold enter
  cases known : Line.ofText s with
  | error e' => rfl
  | ok line =>
    rw [known] at refused
    cases asked : Edit.ofLine line with
    | ok edit =>
      simp only [asked] at refused
      cases refused
    | error e' =>
      simp only [Edit.insertLine_eq, asked, Program.recordsOf_of_error _ asked]
      rfl

/-- A text that is taken in is a line with a number. -/
theorem known_of_enter (taken : (session.enter s).1 = .ok ()) :
    ∃ line n, Line.ofText s = .ok line ∧ line.number = some n := by
  rw [enter_fst] at taken
  cases asked : Edit.ofText s with
  | error e =>
    rw [asked] at taken
    cases taken
  | ok edit =>
    obtain ⟨line, known, numbered, _⟩ := Edit.stored?_cases (Edit.concerns_iff.2 ⟨_, asked⟩)
    exact ⟨line, edit.number, known, numbered⟩

theorem transfer_enter (session : Session) (s : String) :
    (session.enter s).2.memory.transfer = session.memory.transfer := by
  unfold enter
  cases Line.ofText s <;> rfl

end Session

/-! ## 4. Typing in a text -/

namespace Prompt

variable {φ σ : Type}

/-- What comes of typing in a text. If it is refused, that is an error of reading, and all is as it
was; the error is at the number of the line if the text is a line that has one, and at no line
otherwise, and a line without a number is refused for nothing else. If it is taken in, it is a line
with a number, and has changed the program at this number only; variables, register, files and host,
the request for an interrupt included, are as they were. -/
theorem outcome_enter (s : String) (w : Setting φ σ) :
    let typed := (onSession (·.enter s) : Prompt (StateT φ (StateM (Host σ))) Unit).outcome w
    let after := typed.2
    (∀ e, typed.1 = .error e →
      e.code.kind = .reading ∧ after = w ∧
      (∀ e', Line.ofText s = .error e' → e = e' ∧ e.line = none) ∧
      (∀ line, Line.ofText s = .ok line → line.number = none →
        e = .of .illegalDirect ∧ e.line = none) ∧
      (∀ line n, Line.ofText s = .ok line → line.number = some n →
        line.statement = .error e ∧ e.line = some n)) ∧
    (typed.1 = .ok () →
      ∃ line n, Line.ofText s = .ok line ∧ line.number = some n ∧
        (∀ k, k ≠ n → after.session.program.find? k = w.session.program.find? k) ∧
        after.session.memory.vars = w.session.memory.vars ∧
        after.session.memory.transfer = w.session.memory.transfer ∧
        after.files = w.files ∧ after.host = w.host) := by
  intro typed after
  refine ⟨fun e refused => ?_, fun taken => ?_⟩
  · have reason : Edit.Refused s e := Session.refused_of_enter refused
    have same : after = w := by
      show { w with session := (w.session.enter s).2 } = w
      rw [Session.enter_of_error refused]
    refine ⟨reason.kind_eq, same, fun e' unknown => reason.of_unknown unknown,
      fun line known unnumbered => ?_,
      fun line n known numbered => reason.of_numbered known numbered⟩
    obtain rfl := reason.of_unnumbered known unnumbered
    exact ⟨rfl, rfl⟩
  · obtain ⟨line, n, known, numbered⟩ := Session.known_of_enter taken
    exact ⟨line, n, known, numbered, fun k => Session.find?_enter_of_ne known numbered,
      Session.vars_enter _ _, Session.transfer_enter _ _, rfl, rfl⟩

/-- A line whose statement is unfinished, and one that is taken in. -/
theorem outcome_enter_unfinished :
    let w : Setting Unit Unit := ⟨.new .warning, (), ⟨(), true⟩⟩
    let typed (s : String) :=
      (onSession (·.enter s) : Prompt (StateT Unit (StateM (Host Unit))) Unit).outcome w
    let e : Error := ⟨.syntaxError, some 10, ⟨4, 4⟩, "EXPECTED LINE NUMBER"⟩
    (typed "10 GOTO").1 = .error e ∧ (typed "10 GOTO").2 = w ∧
      (typed "10 END").1 = .ok () ∧ ∃ line n, Line.ofText "10 END" = .ok line ∧
        line.number = some n ∧ (typed "10 END").2.host = w.host := by
  intro w typed e
  have refused : (typed "10 GOTO").1 = .error e := by decide +kernel
  have taken : (typed "10 END").1 = .ok () := by decide +kernel
  obtain ⟨line, n, known, numbered, _, _, _, _, host⟩ := (outcome_enter "10 END" w).2 taken
  exact ⟨refused, ((outcome_enter "10 GOTO" w).1 e refused).2.1, taken, line, n, known, numbered,
    host⟩

end Prompt

end LineBasic
