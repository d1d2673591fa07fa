import LineBasic.Proofs.Program.Order
import LineBasic.Proofs.Run.Report

/-!
# The way of a run through its program

The events of a run show its way. It begins at the first line, each statement that is begun is
carried out or the run fails, and what a statement has told decides which line is next. `Path` is
the way as far as whole lines have been carried out, `Course` the way with its end.

Results:
1. `RanLine.course`: one line prolongs a path, or ends it.
2. `Arrives.path`: a run goes along a path.
3. `Session.controlFlow_report`: the law of control flow, for all runs.
-/

namespace LineBasic

namespace Program

/-! ## Events and their successors -/

variable {program : Program} {n m : LineNumber} {t : Transfer}

theorem follow?_eq_none_iff :
    program.follow? n t = .ok none ↔
      t = .halt ∨ t = .next ∧ ∀ k, program.contains k → k ≤ n := by
  cases t with
  | next => simp [follow?, next?_eq_none_iff]
  | jump target =>
    simp only [follow?]
    split <;> simp
  | halt => simp [follow?]

/-- What an event may show: a stored line with its statement, and behind it where that statement
leads. -/
def Shows (program : Program) : Event → Prop
  | .executing n s => program.contains n ∧ program.statement n = .ok s
  | .executed n s t _ => program.contains n ∧ program.statement n = .ok s ∧ s.Leads t

/-- What may come right behind an event. -/
def Succeeds (program : Program) : Event → Event → Prop
  | .executing n s, event => ∃ t vars, event = .executed n s t vars
  | .executed n _ .next _, event =>
    ∃ m s, event = .executing m s ∧ IsLeast {k | program.contains k ∧ n < k} m
  | .executed _ _ (.jump target) _, event =>
    program.contains target ∧ ∃ s, event = .executing target s
  | .executed _ _ .halt _, _ => False

/-- A transfer leads to the next line above, or to a stored line that it names. -/
theorem cases_of_follow? (follows : program.follow? n t = .ok (some m)) :
    t = .next ∧ IsLeast {k | program.contains k ∧ n < k} m ∨
    t = .jump m ∧ program.contains m = true := by
  cases t with
  | next => exact .inl ⟨rfl, next?_eq_some_iff.1 (Except.ok.inj follows)⟩
  | jump target =>
    simp only [follow?] at follows
    split at follows
    next stored =>
      cases follows
      exact .inr ⟨rfl, stored⟩
    next => cases follows
  | halt => cases follows

theorem succeeds_of_follow? {s s' : Statement} {vars : Variables}
    (follows : program.follow? n t = .ok (some m)) :
    program.Succeeds (.executed n s t vars) (.executing m s') := by
  rcases cases_of_follow? follows with ⟨rfl, least⟩ | ⟨rfl, stored⟩
  · exact ⟨m, s', rfl, least⟩
  · exact ⟨stored, s', rfl⟩

theorem contains_of_follow? (follows : program.follow? n t = .ok (some m)) :
    program.contains m = true := by
  rcases cases_of_follow? follows with ⟨_, least⟩ | ⟨_, stored⟩
  · exact least.1.1
  · exact stored

theorem isChain_line (n : LineNumber) (s : Statement) (t : Transfer) (vars : Variables) :
    [Event.executing n s, .executed n s t vars].IsChain program.Succeeds := by
  simp [Succeeds]

/-- The run is over: there was no line to begin with, or its last event leads to no line. -/
def Over (program : Program) (events : List Event) : Prop :=
  program.isEmpty ∨ ∃ n s t vars, events.getLast? = some (.executed n s t vars) ∧
    (t = .halt ∨ t = .next ∧ ∀ k, program.contains k → k ≤ n)

theorem over_iff {events : List Event} {s : Statement} {vars : Variables}
    (last : events.getLast? = some (.executed n s t vars)) (stored : program.contains n) :
    program.Over events ↔ program.follow? n t = .ok none := by
  rw [Over, isEmpty_eq_false stored, last, follow?_eq_none_iff]
  simp

/-- The law of control flow, as far as the events alone show it. -/
structure Lawful (program : Program) (events : List Event) : Prop where
  first : ∀ event ∈ events.head?,
    ∃ n s, event = .executing n s ∧ IsLeast {k | program.contains k} n
  shown : ∀ event ∈ events, program.Shows event
  consecutive : events.IsChain program.Succeeds

/-! ## Paths -/

/-- The events of whole lines, and the line to which they lead. -/
inductive Path (program : Program) : List Event → Option LineNumber → Prop
  | start : Path program [] program.first?
  | line {events : List Event} {n : LineNumber} {s : Statement} {t : Transfer} {vars : Variables}
      {next : Option LineNumber} (path : Path program events (some n))
      (found : program.statement n = .ok s) (leads : s.Leads t)
      (follows : program.follow? n t = .ok next) :
      Path program (events ++ [.executing n s, .executed n s t vars]) next

namespace Path

variable {events more : List Event} {next : Option LineNumber} {s : Statement} {vars : Variables}

/-- A path leads to where its last event leads. -/
theorem last (path : program.Path events next) :
    events = [] ∧ next = program.first? ∨
    ∃ n s t vars, events.getLast? = some (.executed n s t vars) ∧
      program.follow? n t = .ok next := by
  cases path with
  | start => exact .inl ⟨rfl, rfl⟩
  | line _ _ _ follows =>
    exact .inr ⟨_, _, _, _, List.getLast?_append_of_ne_nil _ (by simp), follows⟩

theorem contains (path : program.Path events (some n)) : program.contains n = true := by
  rcases path.last with ⟨_, first⟩ | ⟨_, _, _, _, _, follows⟩
  · exact (first?_eq_some_iff.1 first.symm).1
  · exact contains_of_follow? follows

/-- The law goes on to hold when the statement at the end of a path is begun. -/
theorem lawful_append (path : program.Path events (some n)) (lawful : program.Lawful events)
    (shown : ∀ event ∈ .executing n s :: more, program.Shows event)
    (consecutive : (.executing n s :: more).IsChain program.Succeeds) :
    program.Lawful (events ++ .executing n s :: more) := by
  -- The statement is that of the first line, or the last event on the path leads to it.
  rcases path.last with ⟨rfl, first⟩ | ⟨m, s', t, vars, last, follows⟩
  · refine ⟨?_, shown, consecutive⟩
    rintro event ⟨⟩
    exact ⟨n, s, rfl, first?_eq_some_iff.1 first.symm⟩
  · refine ⟨?_, ?_, ?_⟩
    · intro event head
      rw [List.head?_append_of_ne_nil _ (by rintro rfl; cases last)] at head
      exact lawful.first event head
    · intro event mem
      exact (List.mem_append.1 mem).elim (lawful.shown event) (shown event)
    · refine List.isChain_append.2 ⟨lawful.consecutive, consecutive, ?_⟩
      rw [last]
      rintro _ ⟨⟩ _ ⟨⟩
      exact succeeds_of_follow? follows

/-- What the events of one more statement show, when it has been carried out. -/
theorem shows_line (path : program.Path events (some n)) (found : program.statement n = .ok s)
    (leads : s.Leads t) :
    ∀ event ∈ [Event.executing n s, .executed n s t vars], program.Shows event := by
  simp [Shows, path.contains, found, leads]

theorem lawful (path : program.Path events next) : program.Lawful events := by
  induction path with
  | start => exact ⟨nofun, nofun, .nil⟩
  | line path found leads _ ih =>
    exact path.lawful_append ih (path.shows_line found leads) (isChain_line _ _ _ _)

theorem over_iff (path : program.Path events next) : program.Over events ↔ next = none := by
  rcases path.last with ⟨rfl, rfl⟩ | ⟨n, s, t, vars, last, follows⟩
  · simp [Over, first?_eq_none_iff]
  · have shown := path.lawful.shown _ (List.mem_of_getLast? last)
    simp [Program.over_iff last shown.1, follows]

end Path

/-! ## Courses -/

/-- The events of a run that has come to an end or to its bound, with its result. -/
inductive Course (program : Program) (mode : Mode) :
    List Event → Except Error (Option LineNumber) → Prop
  /-- The run has carried out whole lines. -/
  | whole {events : List Event} {next : Option LineNumber} (path : program.Path events next) :
      Course program mode events (.ok next)
  /-- The run has failed in front of a statement. -/
  | before {events : List Event} {n : LineNumber} {e : Error}
      (path : program.Path events (some n)) : Course program mode events (.error e)
  /-- A statement has failed. -/
  | during {events : List Event} {n : LineNumber} {s : Statement} {e : Error}
      (path : program.Path events (some n)) (found : program.statement n = .ok s) :
      Course program mode (events ++ [.executing n s]) (.error e)
  /-- The run has failed behind a statement: at a step, or since it leads nowhere. -/
  | behind {events : List Event} {n : LineNumber} {s : Statement} {t : Transfer}
      {vars : Variables} {e : Error} (path : program.Path events (some n))
      (found : program.statement n = .ok s) (leads : s.Leads t)
      (cause : mode = .step ∨ program.follow? n t = .error e) :
      Course program mode (events ++ [.executing n s, .executed n s t vars]) (.error e)

/-- A path goes on behind one more statement, or ends there if it leads nowhere. -/
theorem Path.course {mode : Mode} {events : List Event} {s : Statement} {vars : Variables}
    (path : program.Path events (some n)) (found : program.statement n = .ok s)
    (leads : s.Leads t) :
    program.Course mode (events ++ [.executing n s, .executed n s t vars])
      (program.follow? n t) := by
  cases follows : program.follow? n t with
  | ok next => exact .whole (path.line found leads follows)
  | error e => exact .behind path found leads (.inr follows)

namespace Course

variable {mode : Mode} {events : List Event} {next : Option LineNumber}

theorem path (course : program.Course mode events (.ok next)) : program.Path events next := by
  cases course with
  | whole path => exact path

theorem lawful {result : Except Error (Option LineNumber)}
    (course : program.Course mode events result) : program.Lawful events := by
  cases course with
  | whole path => exact path.lawful
  | before path => exact path.lawful
  | during path found =>
    refine path.lawful_append path.lawful ?_ (.singleton _)
    simp [Shows, path.contains, found]
  | behind path found leads cause =>
    exact path.lawful_append path.lawful (path.shows_line found leads) (isChain_line _ _ _ _)

/-- A run that asks at no step ends well just when it is over. -/
theorem finished_iff {result : Except Error (Option LineNumber)}
    (course : program.Course .run events result) :
    ending result = .finished ↔ program.Over events := by
  cases course with
  | @whole _ next path =>
    rw [path.over_iff]
    cases next <;> simp [ending]
  | before path => simp [path.over_iff, ending]
  | during path => simp [Over, isEmpty_eq_false path.contains, ending]
  | @behind _ n s t vars e path _ _ cause =>
    -- Without a step, only a jump to a line that is not stored fails behind a statement.
    rcases cause with stepped | follows
    · cases stepped
    rw [over_iff (List.getLast?_append_of_ne_nil _ (by simp)) path.contains, follows]
    simp [ending]

end Course

end Program

/-! ## What is shown of a run -/

namespace World

variable {σ : Type}

/-- The events that have been shown, in their order. -/
def events (w : World σ) : List Event := eventsOf w.journal.reverse

variable {w after : World σ} {dev : Device (StateM (Host σ))}

@[simp] theorem events_shown (event : Event) :
    (w.shown dev event).events = w.events ++ [event] := by
  simp [events, eventsOf, Call.event?]

@[simp] theorem events_stepped (line : LineNumber) (answer : Except Error Bool) (host : Host σ) :
    (w.record (.stepped line answer) host).events = w.events := by
  simp [events, eventsOf, Call.event?]

@[simp] theorem events_fetched (line : LineNumber) (statement : Statement) :
    (w.fetched dev line statement).events = w.events ++ [.executing line statement] :=
  events_shown _

@[simp] theorem events_emptied : w.emptied.events = w.events := rfl

end World

namespace Statement

/-- A statement shows nothing by itself. -/
theorem Performed.events {σ : Type} {statement : Statement} {dev : Device (StateM (Host σ))}
    {w after : World σ} {made : Option Call} {result : Except Error Transfer}
    (performed : statement.Performed dev w made result after) : after.events = w.events := by
  rw [World.events, World.events, performed.journal]
  cases made with
  | none => rfl
  | some call => simp [eventsOf, Call.event?_of_isTalk (performed.talk call rfl).1]

end Statement

namespace Program

variable {σ : Type} {program : Program} {dev : Device (StateM (Host σ))} {mode : Mode}
  {line : LineNumber} {start w after : World σ}

theorem CarriedOut.events_ok {t : Transfer}
    (carried : program.CarriedOut dev line w (.ok t) after) :
    ∃ s vars, program.statement line = .ok s ∧ s.Leads t ∧
      after.events = w.events ++ [.executing line s, .executed line s t vars] := by
  cases carried with
  | @done s _ _ between _ found performed =>
    exact ⟨s, between.memory.vars, found, performed.leads t rfl, by simp [performed.events]⟩

/-- A statement that jumps jumps to a line that the program mentions. -/
theorem CarriedOut.mentions {target : LineNumber}
    (carried : program.CarriedOut dev line w (.ok (.jump target)) after) :
    program.Mentions target := by
  obtain ⟨s, _, found, leads, _⟩ := carried.events_ok
  exact .inr ⟨line, s, found, leads.target?_eq⟩

theorem CarriedOut.course {e : Error} (carried : program.CarriedOut dev line w (.error e) after)
    (path : program.Path w.events (some line)) : program.Course mode after.events (.error e) := by
  cases carried with
  | interrupted | missing => exact .before path
  | @failed s _ _ _ _ found performed =>
    rw [performed.events, World.events_fetched]
    exact .during path found

/-- One line prolongs a path, or ends it. -/
theorem RanLine.course {result : Except Error (Option LineNumber)}
    (ran : program.RanLine dev mode line w result after)
    (path : program.Path w.events (some line)) :
    program.Course mode after.events result := by
  cases ran with
  | failed carried => exact (carriedOut carried).course path
  | followed _ carried =>
    obtain ⟨s, vars, found, leads, events⟩ := (carriedOut carried).events_ok
    rw [events]
    exact path.course found leads
  | granted _ carried _ =>
    obtain ⟨s, vars, found, leads, events⟩ := (carriedOut carried).events_ok
    rw [World.events_stepped, events]
    exact path.course found leads
  | refused asked carried _ | lost asked carried _ =>
    obtain ⟨s, vars, found, leads, events⟩ := (carriedOut carried).events_ok
    rw [World.events_stepped, events]
    exact .behind path found leads (.inl asked)

/-- A run goes along a path. -/
theorem Arrives.path {count : Nat} {next : Option LineNumber} (fresh : start.journal = [])
    (arrives : program.Arrives dev mode start count next w) : program.Path w.events next := by
  induction arrives with
  | start =>
    rw [World.events, fresh]
    exact .start
  | next _ done ih => exact ((ranLine done).course ih).path

/-- The events of a run are those of a course. -/
theorem Ran.course {bound : Nat} {result : Except Error (Option LineNumber)}
    (fresh : start.journal = []) (ran : program.Ran dev mode start bound result after) :
    program.Course mode after.events result := by
  cases ran with
  | finished _ arrives | unfinished arrives => exact .whole (arrives.path fresh)
  | failed _ arrives failed => exact (ranLine failed).course (arrives.path fresh)

/-! ## The law of control flow -/

/-- The law of control flow, for the events that a run shows and for its ending. -/
structure ControlFlow (program : Program) (mode : Mode) (events : List Event) (ending : Ending) :
    Prop where
  /-- The run begins at the first line. -/
  first : ∀ event, events.head? = some event →
    ∃ n s, event = .executing n s ∧ IsLeast {k | program.contains k} n
  /-- What is begun is the statement of a stored line. -/
  stored : ∀ n s, .executing n s ∈ events → program.contains n ∧ program.statement n = .ok s
  /-- Behind each event comes what may come there. -/
  consecutive : events.IsChain program.Succeeds
  /-- If a statement is begun and no event comes behind that, the run has failed. -/
  last : ∀ n s, events.getLast? = some (.executing n s) → ∃ e, ending = .failed e
  /-- Only `END` halts. -/
  halted : ∀ n s vars, .executed n s .halt vars ∈ events → s = .stop
  /-- Only `GOTO` and `IF` jump, to the line that they name. -/
  jumped : ∀ n s target vars, .executed n s (.jump target) vars ∈ events →
    s = .jump target ∨ ∃ left comparison right, s = .branch left comparison right target
  /-- A run that asks at no step ends well at `END` and behind the last line, and only there. -/
  finished : mode = .run → (ending = .finished ↔ program.Over events)

theorem Course.controlFlow {events : List Event} {result : Except Error (Option LineNumber)}
    (course : program.Course mode events result) :
    program.ControlFlow mode events (ending result) where
  first := course.lawful.first
  stored n s := course.lawful.shown _
  consecutive := course.lawful.consecutive
  last n s last := by
    cases course with
    | whole path =>
      rcases path.last with ⟨rfl, _⟩ | ⟨_, _, _, _, carried, _⟩
      · cases last
      · rw [carried] at last
        cases last
    | before | during | behind => exact ⟨_, rfl⟩
  halted n s vars mem := by
    obtain ⟨_, _, leads⟩ := course.lawful.shown _ mem
    cases leads
    rfl
  jumped n s target vars mem := by
    obtain ⟨_, _, leads⟩ := course.lawful.shown _ mem
    cases leads with
    | jump => exact .inl rfl
    | taken left comparison right => exact .inr ⟨left, comparison, right, rfl⟩
  finished := by
    rintro rfl
    exact course.finished_iff

end Program

namespace Session

variable {σ : Type}

/-- The law of control flow holds for every run. -/
theorem controlFlow_report (session : Session) (dev : Device (StateM (Host σ))) (mode : Mode)
    (bound : Nat) (host : Host σ) :
    let report := session.report dev mode bound host
    session.program.ControlFlow mode (eventsOf report.calls) report.ending := by
  obtain ⟨result, w, tells, ran⟩ := session.ran_report dev mode bound host
  intro report
  rw [tells.ending, tells.calls]
  exact (ran.course rfl).controlFlow

end Session

end LineBasic
