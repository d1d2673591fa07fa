import LineBasic.Proofs.Run.Failure
import LineBasic.Proofs.Run.Register

/-!
# Why runs fail

An error with which a run ends is one that the device has answered with, or there is a reason for it
in the program (`Cause`): an interrupt or a refused step, a jump to a line that is not stored, a
variable without a value, an assignment to something else than a variable, or a reply that is no
number. The reason stands at the line that the error names.

Results:
1. `Cause.running`, `Cause.code_ne_undefinedLine`: what is common to these errors.
2. `RanLine.cause`, `Ran.cause`: why a line fails, and a run.
3. `Session.cause_report`: the errors of runs are sound.
-/

namespace LineBasic

namespace Program

/-- Every line to which a statement can jump is stored. -/
def Closed (program : Program) : Prop :=
  ∀ line statement target, program.statement line = .ok statement →
    statement.target? = some target → program.contains target = true

variable {σ : Type}

/-- Why a run fails by itself with an error, after some calls, and with the variables as they are
then. -/
inductive Cause (program : Program) (dev : Device (StateM (Host σ))) (mode : Mode)
    (start : World σ) (calls : List Call) (vars : Variables) : Error → Prop
  /-- There was an interrupt in front of the line that was next. -/
  | interrupted {count : Nat} {line : LineNumber} {w : World σ}
      (arrives : program.Arrives dev mode start count (some line) w)
      (set : w.host.interrupted = true) (last : calls = w.journal.reverse) :
      Cause program dev mode start calls vars (.breakAt line)
  /-- The device was asked whether to go on, and refused. -/
  | refused {line : LineNumber} (asked : mode = .step)
      (last : calls.getLast? = some (.stepped line (.ok false))) :
      Cause program dev mode start calls vars (.breakAt line)
  /-- The statement has jumped to a line that is not stored. -/
  | undefinedTarget {line target : LineNumber} {statement : Statement}
      (found : program.statement line = .ok statement) (jumps : statement.target? = some target)
      (absent : program.contains target = false) :
      Cause program dev mode start calls vars (.undefinedTarget line target)
  /-- The statement has come to a variable without a value. -/
  | undefinedVariable {line : LineNumber} {statement : Statement} {x : Expr} {name : String}
      (found : program.statement line = .ok statement) (mem : x ∈ statement.exprs)
      (part : (Expr.var name).Within x) (undefined : vars.find? name = none) :
      Cause program dev mode start calls vars ((Error.undefinedVariable name).atLine line)
  /-- The statement has come to an assignment to something that is not a variable. -/
  | illegalAssignment {line : LineNumber} {statement : Statement} {x target value : Expr}
      (found : program.statement line = .ok statement) (mem : x ∈ statement.exprs)
      (part : (Expr.assign target value).Within x) (illegal : ∀ name, target ≠ .var name) :
      Cause program dev mode start calls vars ((Error.illegalAssignment target.text).atLine line)
  /-- The reply to the `INPUT` of the line is no number. -/
  | invalidReply {line : LineNumber} {name reply : String}
      (found : program.statement line = .ok (.input name))
      (last : calls.getLast? = some (.asked (Statement.prompt name) (.ok reply)))
      (unreadable : Number.read reply = none) :
      Cause program dev mode start calls vars
        ((Error.invalidReply (String.ofList (Text.trim reply.toList))).atLine line)

variable {program : Program} {dev : Device (StateM (Host σ))} {mode : Mode} {line : LineNumber}
  {start w after : World σ} {calls : List Call} {vars : Variables} {e : Error}

/-! ## What is common to the errors of runs -/

theorem Cause.running (cause : program.Cause dev mode start calls vars e) :
    e.code.kind = .running := by
  cases cause <;> rfl

/-- If every line that is jumped to is stored, no jump fails. -/
theorem Cause.code_ne_undefinedLine (cause : program.Cause dev mode start calls vars e)
    (closed : program.Closed) : e.code ≠ .undefinedLine := by
  cases cause with
  | undefinedTarget found jumps absent =>
    rw [closed _ _ _ found jumps] at absent
    cases absent
  | interrupted | refused | undefinedVariable | illegalAssignment | invalidReply => exact nofun

/-! ## Why a line fails -/

/-- A statement that is stuck is the cause of the error, which its line is added to. -/
theorem cause_of_stuck {statement : Statement} {made : Option Call}
    (found : program.statement line = .ok statement)
    (stuck : statement.Stuck made vars e) (last : ∀ call ∈ made, calls.getLast? = some call) :
    program.Cause dev mode start calls vars (e.orAtLine line) := by
  cases stuck with
  | evaluation mem stuck =>
    cases stuck with
    | undefinedVariable part undefined => exact .undefinedVariable found mem part undefined
    | illegalAssignment part illegal => exact .illegalAssignment found mem part illegal
  | reply isInput asked unreadable =>
    subst isInput
    exact .invalidReply found (last _ asked) unreadable

theorem CarriedOut.cause {count : Nat} (readable : ∃ s, program.statement line = .ok s)
    (arrives : program.Arrives dev mode start count (some line) w)
    (carried : program.CarriedOut dev line w (.error e) after) :
    Answered after.journal.reverse e ∨
      program.Cause dev mode start after.journal.reverse after.memory.vars e := by
  cases carried with
  | interrupted set => exact .inr (.interrupted arrives set rfl)
  | missing _ absent =>
    -- A stored line has a statement.
    obtain ⟨s, found⟩ := readable
    rw [found] at absent
    cases absent
  | @failed s made e _ _ found performed =>
    have last : ∀ call ∈ made, after.journal.reverse.getLast? = some call := by
      rintro call ⟨⟩
      rw [List.getLast?_reverse, performed.journal]
      rfl
    rcases performed.fails e rfl with stuck | ⟨call, mem, answer⟩
    · exact .inr (cause_of_stuck found stuck last)
    · exact .inl ⟨call, List.mem_of_getLast? (last call mem), e, answer, .inr ⟨line, rfl⟩⟩

/-- A transfer that fails has been a jump to a line that is not stored. -/
theorem CarriedOut.cause_of_follow? {t : Transfer}
    (carried : program.CarriedOut dev line w (.ok t) after)
    (fails : program.follow? line t = .error e) :
    program.Cause dev mode start calls vars e := by
  obtain ⟨target, rfl, absent, rfl⟩ := jump_of_follow? fails
  obtain ⟨s, _, found, leads, _⟩ := carried.events_ok
  exact .undefinedTarget found leads.target?_eq absent

/-- Why a line of a run fails. -/
theorem RanLine.cause {result : Except Error (Option LineNumber)} {count : Nat}
    (readable : ∃ s, program.statement line = .ok s)
    (arrives : program.Arrives dev mode start count (some line) w)
    (ran : program.RanLine dev mode line w result after) (fails : result = .error e) :
    Answered after.journal.reverse e ∨
      program.Cause dev mode start after.journal.reverse after.memory.vars e := by
  cases ran with
  | failed carried =>
    cases fails
    exact (carriedOut carried).cause readable arrives
  | followed _ carried | granted _ carried =>
    exact .inr ((carriedOut carried).cause_of_follow? fails)
  | refused asked =>
    cases fails
    exact .inr (.refused asked (List.getLast?_reverse ..))
  | lost =>
    cases fails
    exact .inl ⟨_, List.mem_reverse.2 List.mem_cons_self, e, rfl, .inl rfl⟩

/-- Why a run fails. -/
theorem Ran.cause {bound : Nat} {result : Except Error (Option LineNumber)}
    (readable : ∀ line, program.contains line → ∃ s, program.statement line = .ok s)
    (fresh : start.journal = []) (ran : program.Ran dev mode start bound result after)
    (fails : result = .error e) :
    Answered after.journal.reverse e ∨
      program.Cause dev mode start after.journal.reverse after.memory.vars e := by
  cases ran with
  | finished | unfinished => cases fails
  | failed _ arrives failed =>
    have stored := (arrives.path fresh).contains
    exact (ranLine failed).cause (readable _ stored) arrives fails

end Program

/-! ## The errors of runs -/

namespace Session

variable {σ : Type} {session : Session} {dev : Device (StateM (Host σ))} {mode : Mode}
  {bound : Nat} {host : Host σ} {e : Error}

/-- The errors of runs are sound. If the device has not answered with the error of a run, the
program shows what it says: there is a cause for it at the line that it names. It is an error of
running programs, and it names no undefined line if every line that is jumped to is stored. -/
theorem cause_report (reachable : session.Reachable)
    (failed : (session.report dev mode bound host).ending = .failed e) :
    let report := session.report dev mode bound host
    Program.Answered report.calls e ∨
      session.program.Cause dev mode (session.started mode host) report.calls
        report.session.memory.vars e ∧
      e.code.kind = .running ∧ (session.program.Closed → e.code ≠ .undefinedLine) := by
  obtain ⟨result, after, tells, ran⟩ := session.ran_report dev mode bound host
  intro report
  rw [show report.calls = _ from tells.calls, show report.session.memory.vars = _ from tells.vars]
  refine (ran.cause reachable.readable rfl (tells.fails failed)).imp_right fun cause => ?_
  exact ⟨cause, cause.running, cause.code_ne_undefinedLine⟩

/-- A variable without a value, behind an assignment that has been carried out in the same line. -/
theorem cause_report_variable :
    let session := ((Session.new .warning).enter "10 PRINT X = 1, X + Y").2
    let dev : Device (StateM (Host Unit)) :=
      ⟨fun _ => pure (.ok ()), fun _ => pure (.ok ""), fun _ => pure (.ok true),
        fun _ => pure (.ok ())⟩
    let report := session.report dev .run 5 ⟨(), true⟩
    let e := (Error.undefinedVariable "Y").atLine (some 10)
    session.Reachable ∧ report.ending = .failed e ∧
      report.session.memory.vars.find? "X" = some 1 ∧
      report.session.memory.vars.find? "Y" = none ∧
      session.program.Cause dev .run (session.started .run ⟨(), true⟩) report.calls
        report.session.memory.vars e := by
  intro session dev report e
  have reachable : session.Reachable := .enter _ (.new _)
  have failed : report.ending = .failed e := by decide +kernel
  refine ⟨reachable, failed, by decide +kernel, by decide +kernel, ?_⟩
  rcases cause_report reachable failed with ⟨call, mem, e', answer, _⟩ | ⟨cause, _⟩
  · have none : report.calls.map Call.error? = [none] := by decide +kernel
    have mem : call.error? ∈ report.calls.map Call.error? := List.mem_map_of_mem mem
    rw [none, answer] at mem
    cases List.mem_singleton.1 mem
  · exact cause

end Session

end LineBasic
