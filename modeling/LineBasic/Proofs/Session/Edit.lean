import LineBasic.Proofs.Session

/-!
# What typing in does to a program

What a typed text asks for does not depend on the session in which it is typed: it is refused with
an error of its own, or it is an edit of one line (`Edit.ofText`). Typing it in makes that edit and
nothing else, so of a sequence of texts only the last edit of each line matters.

Results:
1. `enter_fst`, `program_enter_eq`: typing in makes the edit that the text asks for.
2. `Edit.apply_comm`, `Program.afterText_comm`: edits of different lines commute.
3. `find?_typed`: the last edit of a line decides what is stored there.
-/

namespace LineBasic

/-! ## Edits -/

/-- The change of one line: what is stored there afterwards, if anything. -/
structure Edit where
  number : LineNumber
  entry : Option Entry

namespace Edit

/-- The edit that a line asks for, or why it is refused. -/
def ofLine (line : Line) : Except Error Edit :=
  match line.number with
  | none => .error (.of .illegalDirect)
  | some number =>
    if line.isEmpty then .ok ⟨number, none⟩
    else
      match line.statement with
      | .ok statement => .ok ⟨number, some ⟨line.text, some statement⟩⟩
      | .error e => .error e

/-- The edit that a text asks for, or why the text is refused. -/
def ofText (s : String) : Except Error Edit :=
  match Line.ofText s with
  | .ok line => ofLine line
  | .error e => .error e

/-- Makes an edit. -/
def apply (edit : Edit) (program : Program) : Program :=
  match edit.entry with
  | some entry => program.insert edit.number entry
  | none => program.removeLine edit.number

variable {edit other : Edit} {s : String} {program : Program}

theorem find?_apply (edit : Edit) (program : Program) (n : LineNumber) :
    (edit.apply program).find? n = if n = edit.number then edit.entry else program.find? n := by
  unfold apply
  split
  next entry stored => rw [SortedMap.find?_insert, stored]
  next removed => rw [Program.removeLine, SortedMap.find?_erase, removed]

/-- Edits of different lines commute. -/
theorem apply_comm (differ : edit.number ≠ other.number) (program : Program) :
    edit.apply (other.apply program) = other.apply (edit.apply program) := by
  refine SortedMap.ext_find? fun n => ?_
  simp only [find?_apply]
  split
  next here => rw [if_neg (here ▸ differ)]
  next => rfl

/-- The edit that a line asks for, in terms of the line. -/
theorem ofLine_eq_ok_iff {line : Line} :
    ofLine line = .ok edit ↔ line.number = some edit.number ∧
      (line.isEmpty = true ∧ edit.entry = none ∨
        line.isEmpty = false ∧ ∃ statement, line.statement = .ok statement ∧
          edit.entry = some ⟨line.text, some statement⟩) := by
  obtain ⟨number, entry⟩ := edit
  unfold ofLine
  cases line.number with
  | none => simp
  | some n =>
    cases line.isEmpty with
    | true => simp [eq_comm (a := entry)]
    | false =>
      cases line.statement with
      | error e => simp
      | ok statement => simp [eq_comm (a := entry)]

/-- Of a line with a number, only the statement can be refused. -/
theorem statement_of_ofLine {line : Line} {n : LineNumber} {e : Error}
    (numbered : line.number = some n) (asked : ofLine line = .error e) :
    line.statement = .error e := by
  unfold ofLine at asked
  rw [numbered] at asked
  cases empty : line.isEmpty with
  | true =>
    rw [empty] at asked
    cases asked
  | false =>
    cases readable : line.statement with
    | ok statement => simp [empty, readable] at asked
    | error e' =>
      simp only [empty, readable, Bool.false_eq_true, if_false] at asked
      cases asked
      rfl

/-- Taking in a line makes the edit that it asks for. -/
theorem insertLine_eq (program : Program) (line : Line) :
    program.insertLine line =
      match ofLine line with
      | .ok edit => (.ok (), edit.apply program)
      | .error e => (.error e, program) := by
  cases numbered : line.number with
  | none => simp only [Program.insertLine, ofLine, numbered]
  | some number =>
    cases full : line.isEmpty with
    | true =>
      simp only [Program.insertLine, ofLine, numbered, full]
      rfl
    | false =>
      cases readable : line.statement with
      | error e =>
        simp only [Program.insertLine, ofLine, numbered, full, readable]
        rfl
      | ok statement =>
        rw [Program.insertLine_of_statement numbered full readable]
        simp only [ofLine, numbered, full, readable]
        rfl

end Edit

/-! ## Typing in one text -/

/-- The program after a text has been typed in. -/
def Program.afterText (program : Program) (s : String) : Program :=
  match Edit.ofText s with
  | .ok edit => edit.apply program
  | .error _ => program

namespace Session

/-- Whether a text is refused, and why, depends on the text alone. -/
theorem enter_fst (session : Session) (s : String) :
    (session.enter s).1 = (Edit.ofText s).map fun _ => () := by
  unfold enter Edit.ofText
  cases Line.ofText s with
  | error e => rfl
  | ok line =>
    simp only [Edit.insertLine_eq]
    cases Edit.ofLine line <;> rfl

theorem program_enter_eq (session : Session) (s : String) :
    (session.enter s).2.program = session.program.afterText s := by
  unfold enter Program.afterText Edit.ofText
  cases Line.ofText s with
  | error e => rfl
  | ok line =>
    simp only [Edit.insertLine_eq]
    cases Edit.ofLine line <;> rfl

theorem vars_enter (session : Session) (s : String) :
    (session.enter s).2.memory.vars = session.memory.vars := by
  unfold enter
  cases Line.ofText s <;> rfl

/-- A text that is refused leaves the program as it is. -/
theorem program_enter_of_error {session : Session} {s : String} {e : Error}
    (refused : (session.enter s).1 = .error e) :
    (session.enter s).2.program = session.program := by
  rw [enter_fst] at refused
  rw [program_enter_eq, Program.afterText]
  cases asked : Edit.ofText s with
  | error e => rfl
  | ok edit =>
    rw [asked] at refused
    cases refused

end Session

/-! ## Typing in one text after the other -/

namespace Edit

/-- A text is taken in, as an edit of a given line. -/
def concerns (n : LineNumber) (s : String) : Bool :=
  match ofText s with
  | .ok edit => edit.number = n
  | .error _ => false

/-- The last of some texts that is taken in as an edit of a given line. -/
def last? (texts : List String) (n : LineNumber) : Option String :=
  (texts.filter (concerns n)).getLast?

/-- What a text leaves stored when it is taken in. -/
def stored? (s : String) : Option Entry :=
  match ofText s with
  | .ok edit => edit.entry
  | .error _ => none

variable {n : LineNumber} {s t : String}

theorem concerns_iff : concerns n s = true ↔ ∃ entry, ofText s = .ok ⟨n, entry⟩ := by
  unfold concerns
  cases ofText s with
  | error e => simp
  | ok edit =>
    obtain ⟨number, entry⟩ := edit
    simp

/-- The last edit of a line is an edit of it. -/
theorem concerns_of_last? {texts : List String} (last : last? texts n = some s) :
    concerns n s = true :=
  (List.mem_filter.1 (List.mem_of_getLast? last)).2

/-- What a text that is taken in leaves stored, in terms of the line that it is. -/
theorem stored?_cases (taken : concerns n s = true) :
    ∃ line, Line.ofText s = .ok line ∧ line.number = some n ∧
      (line.isEmpty = true ∧ stored? s = none ∨
        line.isEmpty = false ∧ ∃ statement, line.statement = .ok statement ∧
          stored? s = some ⟨line.text, some statement⟩) := by
  obtain ⟨entry, asked⟩ := concerns_iff.1 taken
  rw [stored?, asked]
  unfold ofText at asked
  cases known : Line.ofText s with
  | error e =>
    rw [known] at asked
    cases asked
  | ok line =>
    rw [known] at asked
    exact ⟨line, rfl, ofLine_eq_ok_iff.1 asked⟩

end Edit

theorem Program.find?_afterText (program : Program) (s : String) (n : LineNumber) :
    (program.afterText s).find? n =
      if Edit.concerns n s then Edit.stored? s else program.find? n := by
  unfold Program.afterText Edit.concerns Edit.stored?
  cases Edit.ofText s with
  | error e => rfl
  | ok edit => simp only [Edit.find?_apply, decide_eq_true_eq, eq_comm (a := n)]

/-- Texts that do not edit the same line can be typed in in either order. -/
theorem Program.afterText_comm {s t : String}
    (apart : ∀ n, Edit.concerns n s = true → Edit.concerns n t = false) (program : Program) :
    (program.afterText s).afterText t = (program.afterText t).afterText s := by
  unfold afterText
  cases first : Edit.ofText s with
  | error e => rfl
  | ok edit =>
    cases second : Edit.ofText t with
    | error e => rfl
    | ok other =>
      refine Edit.apply_comm (fun same => ?_) program
      have free := apart edit.number (Edit.concerns_iff.2 ⟨_, first⟩)
      rw [← same, Edit.concerns_iff.2 ⟨_, second⟩] at free
      cases free

/-- The last text that edits a line decides what is stored there. -/
theorem Program.find?_typed (program : Program) (texts : List String) (n : LineNumber) :
    (texts.foldl afterText program).find? n =
      match Edit.last? texts n with
      | some s => Edit.stored? s
      | none => program.find? n := by
  induction texts using List.reverseRecOn with
  | nil => rfl
  | append_singleton texts s ih =>
    rw [List.foldl_append, List.foldl_cons, List.foldl_nil, find?_afterText, ih]
    unfold Edit.last?
    rw [List.filter_append]
    by_cases taken : Edit.concerns n s = true
    · simp [taken]
    · simp [taken]

end LineBasic
