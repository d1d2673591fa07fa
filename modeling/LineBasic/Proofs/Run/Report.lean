import LineBasic.Proofs.Device.Journal
import LineBasic.Proofs.Run

/-!
# Reports of runs

A report tells what can be seen of a run: how it ended, the session behind it, the calls it made in
their order, and the host of its device. It is drawn up on a device that keeps a journal, which
changes nothing about the run.

Results:
1. `Session.run_eq_report`: a report is about the run itself.
2. `Session.ran_report`: every report tells of a run.
3. `Session.report_of_le`: when a run is over, it is the same with any higher bound.
4. `Session.calls_report_prefix`: a run with a lower bound is the beginning of one with a higher.
-/

namespace LineBasic

/-- What can be seen of a run. -/
structure Report (σ : Type) where
  ending : Ending
  session : Session
  calls : List Call
  host : Host σ

namespace Session

variable {σ : Type}

/-- Runs the program, and tells what there was to be seen. -/
def report (session : Session) (dev : Device (StateM (Host σ))) (mode : Mode) (bound : Nat)
    (host : Host σ) : Report σ :=
  let (((ending, session), journal), host) := session.run dev.journaled mode bound [] host
  ⟨ending, session, journal.reverse, host⟩

/-- The world in which a run begins. -/
def started (session : Session) (mode : Mode) (host : Host σ) : World σ :=
  ⟨session.memory.clear.note (.runStarted mode), [], { host with interrupted := false }⟩

/-- A report is about the run itself. -/
theorem run_eq_report (session : Session) (dev : Device (StateM (Host σ))) (mode : Mode)
    (bound : Nat) (host : Host σ) :
    let report := session.report dev mode bound host
    session.run dev mode bound host = ((report.ending, report.session), report.host) :=
  (congrFun (session.run_journaled dev mode bound []) host).symm

end Session

/-- A report tells of a result, and of the world behind it. -/
structure Report.Tells {σ : Type} (report : Report σ) (result : Except Error (Option LineNumber))
    (w : World σ) : Prop where
  ending : report.ending = Program.ending result
  vars : report.session.memory.vars = w.memory.vars
  transfer : report.session.memory.transfer = w.memory.transfer
  calls : report.calls = w.journal.reverse
  host : report.host = w.host

theorem Report.Tells.fails {σ : Type} {report : Report σ}
    {result : Except Error (Option LineNumber)} {w : World σ} {e : Error}
    (tells : report.Tells result w) (failed : report.ending = .failed e) : result = .error e := by
  rw [tells.ending] at failed
  rcases result with e | _ | line <;> cases failed
  rfl

namespace Session

variable {σ : Type}

theorem report_eq (session : Session) (dev : Device (StateM (Host σ))) (mode : Mode) (bound : Nat)
    (host : Host σ) :
    session.report dev mode bound host =
      match (session.program.runLines dev.journaled mode bound session.program.first?).outcome
          (session.started mode host) with
      | (result, w) =>
        ⟨Program.ending result,
          { session with
            memory := (Program.endRecord? (Program.ending result)).elim w.memory w.memory.note },
          w.journal.reverse, w.host⟩ :=
  rfl

/-- The report of a run tells of what its lines come to. -/
theorem tells_report {session : Session} {dev : Device (StateM (Host σ))} {mode : Mode}
    {bound : Nat} {host : Host σ} {result : Except Error (Option LineNumber)} {w : World σ}
    (done : (session.program.runLines dev.journaled mode bound session.program.first?).outcome
      (session.started mode host) = (result, w)) :
    (session.report dev mode bound host).Tells result w := by
  rw [report_eq, done]
  -- What is noted at the end is in the log only.
  rcases result with e | _ | line <;> exact ⟨rfl, rfl, rfl, rfl, rfl⟩

/-- When a run is over, it is the same with any higher bound. -/
theorem report_of_le {session : Session} {dev : Device (StateM (Host σ))} {mode : Mode}
    {bound higher : Nat} {host : Host σ}
    (ended : (session.report dev mode bound host).ending.isOver = true) (le : bound ≤ higher) :
    session.report dev mode higher host = session.report dev mode bound host := by
  have ran := Program.ran (Prod.eta ((session.program.runLines dev.journaled mode bound
    session.program.first?).outcome (session.started mode host))).symm
  rw [(tells_report (Prod.eta _).symm).ending] at ended
  rw [report_eq, report_eq, ran.outcome_of_le ended le]

/-- Every report tells of a run. -/
theorem ran_report (session : Session) (dev : Device (StateM (Host σ))) (mode : Mode) (bound : Nat)
    (host : Host σ) :
    ∃ result w, (session.report dev mode bound host).Tells result w ∧
      session.program.Ran dev mode (session.started mode host) bound result w := by
  cases done : (session.program.runLines dev.journaled mode bound session.program.first?).outcome
      (session.started mode host) with
  | mk result w => exact ⟨result, w, tells_report done, Program.ran done⟩

/-- With a higher bound, a run makes the same calls first. -/
theorem calls_report_prefix {session : Session} {dev : Device (StateM (Host σ))} {mode : Mode}
    {lower bound : Nat} (le : lower ≤ bound) (host : Host σ) :
    (session.report dev mode lower host).calls <+: (session.report dev mode bound host).calls := by
  rw [(tells_report (Prod.eta _).symm).calls, (tells_report (Prod.eta _).symm).calls,
    List.reverse_prefix]
  exact Program.journal_suffix_of_le le

end Session

end LineBasic
