import LineBasic.Proofs.Run.ControlFlow
import LineBasic.Proofs.Session

/-!
# The line that failed

An error that ends a run names the line at which it came up: that of the statement begun last, or,
when the run was interrupted, the line that was next. This needs a device that names no lines of its
own (`Device.Unplaced`), and it has one gap: when the device fails where it is asked whether to go
on, its error is passed on as it is (`failed_unnamed`).

Results:
1. `Ran.faulted`: how a run fails.
2. `Session.failed_report`: which line a failed run names.
-/

namespace LineBasic

/-- The errors with which a device answers name no line. -/
structure Device.Unplaced {σ : Type} (dev : Device (StateM (Host σ))) : Prop where
  print : ∀ text host e, (dev.print text host).1 = .error e → e.line = none
  input : ∀ prompt host e, (dev.input prompt host).1 = .error e → e.line = none
  step : ∀ line host e, (dev.step line host).1 = .error e → e.line = none

theorem Device.Unplaced.line_eq_none {σ : Type} {dev : Device (StateM (Host σ))} {call : Call}
    {e : Error} (unplaced : dev.Unplaced) (given : call.Of dev) (answer : call.error? = some e) :
    e.line = none := by
  cases call with
  | printed text result =>
    obtain ⟨host, given⟩ := given
    cases result with
    | ok => cases answer
    | error e =>
      cases answer
      exact unplaced.print text host e given
  | asked prompt result =>
    obtain ⟨host, given⟩ := given
    cases result with
    | ok => cases answer
    | error e =>
      cases answer
      exact unplaced.input prompt host e given
  | stepped line result =>
    obtain ⟨host, given⟩ := given
    cases result with
    | ok => cases answer
    | error e =>
      cases answer
      exact unplaced.step line host e given
  | traced => cases answer

/-- Neither a statement nor such a device knows of a line. -/
theorem Statement.Performed.line_eq_none {σ : Type} {statement : Statement}
    {dev : Device (StateM (Host σ))} {w after : World σ} {made : Option Call} {e : Error}
    (unplaced : dev.Unplaced) (performed : statement.Performed dev w made (.error e) after) :
    e.line = none := by
  rcases performed.fails e rfl with stuck | ⟨call, mem, answer⟩
  · exact stuck.raised.line_eq_none
  · exact unplaced.line_eq_none (performed.talk call mem).2 answer

theorem Error.line_orAtLine {e : Error} (unplaced : e.line = none) (line : LineNumber) :
    (e.orAtLine line).line = some line := by
  rw [Error.orAtLine, unplaced]
  rfl

/-- The lines whose statements have been begun. -/
def begunIn (events : List Event) : List LineNumber :=
  events.filterMap fun
    | .executing line _ => some line
    | .executed .. => none

namespace Program

variable {σ : Type} {program : Program} {dev : Device (StateM (Host σ))} {mode : Mode}
  {line : LineNumber} {start w after : World σ} {e : Error}

/-- Why a run has failed, and what it had come to. -/
inductive Faulted (program : Program) (dev : Device (StateM (Host σ))) (mode : Mode)
    (start : World σ) (e : Error) (after : World σ) : Prop
  /-- At the statement begun last. -/
  | begun {line : LineNumber} (named : e.line = some line) (stored : program.contains line)
      (last : (begunIn after.events).getLast? = some line)
  /-- There was an interrupt in front of the line that was next. -/
  | interrupted {count : Nat} {line : LineNumber} {w : World σ} (named : e = .breakAt line)
      (stored : program.contains line)
      (arrives : program.Arrives dev mode start count (some line) w)
      (set : w.host.interrupted = true) (left : after = w.heard)
  /-- The device failed when it was asked whether to go on. -/
  | lost {line : LineNumber} (asked : mode = .step) (unnamed : e.line = none)
      (stored : program.contains line)
      (answer : after.journal.head? = some (.stepped line (.error e)))

theorem CarriedOut.begun_ok {t : Transfer} (carried : program.CarriedOut dev line w (.ok t) after) :
    begunIn after.events = begunIn w.events ++ [line] := by
  obtain ⟨s, vars, _, _, events⟩ := carried.events_ok
  rw [events]
  simp [begunIn]

theorem CarriedOut.last_begun {t : Transfer}
    (carried : program.CarriedOut dev line w (.ok t) after) :
    (begunIn after.events).getLast? = some line := by
  rw [carried.begun_ok, List.getLast?_concat]

/-- How a line of a run fails. -/
theorem RanLine.faulted {result : Except Error (Option LineNumber)} {count : Nat}
    (unplaced : dev.Unplaced) (stored : program.contains line)
    (readable : ∃ s, program.statement line = .ok s)
    (arrives : program.Arrives dev mode start count (some line) w)
    (ran : program.RanLine dev mode line w result after) (fails : result = .error e) :
    program.Faulted dev mode start e after := by
  cases ran with
  | failed carried =>
    cases fails
    cases carriedOut carried with
    | interrupted set => exact .interrupted rfl stored arrives set rfl
    | missing _ absent =>
      -- A stored line has a statement.
      obtain ⟨s, found⟩ := readable
      rw [found] at absent
      cases absent
    | @failed s made e _ _ _ performed =>
      refine .begun (Error.line_orAtLine (performed.line_eq_none unplaced) line) stored ?_
      simp [performed.events, begunIn]
  | followed _ carried =>
    obtain ⟨target, rfl⟩ := undefinedTarget_of_follow? fails
    exact .begun rfl stored (carriedOut carried).last_begun
  | granted _ carried _ =>
    obtain ⟨target, rfl⟩ := undefinedTarget_of_follow? fails
    refine .begun rfl stored ?_
    rw [World.events_stepped]
    exact (carriedOut carried).last_begun
  | refused _ carried _ =>
    cases fails
    refine .begun rfl stored ?_
    rw [World.events_stepped]
    exact (carriedOut carried).last_begun
  | lost asked carried answer =>
    cases fails
    exact .lost asked (unplaced.step line _ e answer) stored rfl

/-- How a run fails. -/
theorem Ran.faulted {bound : Nat} {result : Except Error (Option LineNumber)}
    (unplaced : dev.Unplaced)
    (readable : ∀ line, program.contains line → ∃ s, program.statement line = .ok s)
    (fresh : start.journal = []) (ran : program.Ran dev mode start bound result after)
    (fails : result = .error e) : program.Faulted dev mode start e after := by
  cases ran with
  | finished | unfinished => cases fails
  | failed _ arrives failed =>
    have stored := (arrives.path fresh).contains
    exact (ranLine failed).faulted unplaced stored (readable _ stored) arrives fails

end Program

namespace Session

variable {session : Session}

/-- Every stored line has a statement. -/
theorem Reachable.readable (reachable : session.Reachable) (line : LineNumber)
    (stored : session.program.contains line) : ∃ s, session.program.statement line = .ok s := by
  obtain ⟨entry, found⟩ := Option.isSome_iff_exists.1 stored
  obtain ⟨_, _, _, statement, _, _, _, _, rfl⟩ :=
    reachable.program.holds (fun _ _ => trivial) line entry found
  exact ⟨statement, by rw [Program.statement, found]; rfl⟩

variable {σ : Type} {dev : Device (StateM (Host σ))} {mode : Mode} {bound : Nat} {host : Host σ}
  {e : Error}

/-- A failed run names a stored line: that of the statement begun last, or, when it was interrupted,
that which was next. Only an error of the device that comes up when it is asked whether to go on
names none. -/
theorem failed_report (reachable : session.Reachable) (unplaced : dev.Unplaced)
    (failed : (session.report dev mode bound host).ending = .failed e) :
    let report := session.report dev mode bound host
    (∃ line, e.line = some line ∧ session.program.contains line ∧
      ((begunIn (eventsOf report.calls)).getLast? = some line ∨
        e = .breakAt line ∧ ∃ count w,
          session.program.Arrives dev mode (session.started mode host) count (some line) w ∧
          w.host.interrupted = true ∧ w.journal.reverse = report.calls)) ∨
    (mode = .step ∧ e.line = none ∧ ∃ line, session.program.contains line ∧
      report.calls.getLast? = some (.stepped line (.error e))) := by
  obtain ⟨result, after, tells, ran⟩ := session.ran_report dev mode bound host
  intro report
  rw [show report.calls = _ from tells.calls]
  rcases ran.faulted unplaced reachable.readable rfl (tells.fails failed) with
    ⟨named, stored, last⟩ | ⟨rfl, stored, arrives, set, rfl⟩ | ⟨asked, unnamed, stored, answer⟩
  · exact .inl ⟨_, named, stored, .inl last⟩
  · exact .inl ⟨_, rfl, stored, .inr ⟨rfl, _, _, arrives, set, rfl⟩⟩
  · exact .inr ⟨asked, unnamed, _, stored, by rw [List.getLast?_reverse, answer]⟩

/-- A jump to a line that is not stored. -/
theorem failed_report_jump :
    let session := ((Session.new .warning).enter "10 GOTO 20").2
    let dev : Device (StateM (Host Unit)) :=
      ⟨fun _ => pure (.ok ()), fun _ => pure (.ok ""), fun _ => pure (.ok true),
        fun _ => pure (.ok ())⟩
    let report := session.report dev .run 5 ⟨(), true⟩
    session.Reachable ∧ dev.Unplaced ∧ report.ending = .failed (.undefinedTarget 10 20) ∧
      session.program.contains 10 ∧ (begunIn (eventsOf report.calls)).getLast? = some 10 := by
  intro session dev report
  have reachable : session.Reachable := .enter _ (.new _)
  have unplaced : dev.Unplaced := ⟨nofun, nofun, nofun⟩
  have failed : report.ending = .failed (.undefinedTarget 10 20) := by decide +kernel
  refine ⟨reachable, unplaced, failed, ?_⟩
  rcases failed_report reachable unplaced failed with
    ⟨_, ⟨⟩, stored, last | ⟨other, _⟩⟩ | ⟨other, _⟩
  · exact ⟨stored, last⟩
  · cases other
  · cases other

/-- When the device fails where it is asked whether to go on, the error of the run names no line. -/
theorem failed_unnamed :
    ∃ (session : Session) (dev : Device (StateM (Host Unit))) (e : Error),
      session.Reachable ∧ dev.Unplaced ∧
      (session.report dev .step 5 ⟨(), false⟩).ending = .failed e ∧ e.line = none := by
  refine ⟨((Session.new .warning).enter "10 REM").2,
    ⟨fun _ => pure (.ok ()), fun _ => pure (.ok ""), fun _ => pure (.error (.io "lost")),
      fun _ => pure (.ok ())⟩, .io "lost", .enter _ (.new _), ⟨nofun, nofun, ?_⟩,
    by decide +kernel, rfl⟩
  rintro line host e ⟨⟩
  rfl

end Session

end LineBasic
