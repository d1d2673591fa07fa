import LineBasic.Proofs.Run.Report

/-!
# The transfer register

A statement leaves in the transfer register where the run goes on, and the run takes it from there.
So the register is empty but between the two: when a statement begins, when it has failed, and when
the run is over. The run never looks for a transfer in vain, and evaluation never meets an operator
without a meaning, so an internal error can only come from the device.

Results:
1. `Statement.disciplined`: what a statement does to an empty register.
2. `Ran.transfer`: the register is empty when a run ends.
3. `Ran.internalError`: whence internal errors come.
4. `Session.register_report`: the discipline of the register, for all runs.
-/

namespace LineBasic

/-- What a statement does to the transfer register. -/
structure Statement.Disciplined {σ : Type} (statement : Statement)
    (dev : Device (StateM (Host σ))) (w : World σ) : Prop where
  /-- The register is empty when the statement begins. -/
  empty : w.memory.transfer = none
  /-- It is still empty when all is done but to set it. -/
  unset : ∀ result after, (statement.perform dev.journaled).outcome w = (result, after) →
    after.memory.transfer = none
  /-- When the statement has succeeded, a transfer can be taken from it, and then it is empty. -/
  set : ∀ after, (statement.execute dev.journaled).outcome w = (.ok (), after) →
    ∃ t, after.memory.transfer = some t ∧
      after.memory.takeTransfer = (.ok t, after.emptied.memory)
  /-- When the statement has failed, it is still empty. -/
  kept : ∀ e after, (statement.execute dev.journaled).outcome w = (.error e, after) →
    after.memory.transfer = none

variable {σ : Type} {dev : Device (StateM (Host σ))} {w : World σ}

namespace Statement

variable {statement : Statement} {after : World σ}

theorem outcome_execute_ok (done : (statement.execute dev.journaled).outcome w = (.ok (), after)) :
    ∃ t between, (statement.perform dev.journaled).outcome w = (.ok t, between) ∧
      after = between.setMemory (between.memory.setTransfer t) := by
  rw [outcome_execute] at done
  cases performed : (statement.perform dev.journaled).outcome w with
  | mk result between =>
    rw [performed] at done
    cases result with
    | ok t =>
      cases done
      exact ⟨t, between, rfl, rfl⟩
    | error e => cases done

theorem outcome_execute_error {e : Error}
    (done : (statement.execute dev.journaled).outcome w = (.error e, after)) :
    (statement.perform dev.journaled).outcome w = (.error e, after) := by
  rw [outcome_execute] at done
  cases performed : (statement.perform dev.journaled).outcome w with
  | mk result between =>
    rw [performed] at done
    cases result with
    | ok t => cases done
    | error e =>
      cases done
      rfl

theorem disciplined (statement : Statement) (empty : w.memory.transfer = none) :
    statement.Disciplined dev w := by
  -- Carrying out does not touch the register, and nothing else stands before it is set.
  have unset : ∀ result after, (statement.perform dev.journaled).outcome w = (result, after) →
      after.memory.transfer = none := by
    intro result after done
    obtain ⟨made, performed⟩ := Statement.performed done
    rw [performed.transfer, empty]
  refine ⟨empty, unset, fun after done => ?_, fun e after done => ?_⟩
  · obtain ⟨t, between, _, rfl⟩ := outcome_execute_ok done
    exact ⟨t, rfl, rfl⟩
  · exact unset _ _ (outcome_execute_error done)

end Statement

namespace Program

variable {program : Program} {mode : Mode} {line : LineNumber} {start after : World σ}

/-! ## The register between the lines -/

theorem CarriedOut.transfer {result : Except Error Transfer}
    (carried : program.CarriedOut dev line w result after) (empty : w.memory.transfer = none) :
    after.memory.transfer = none := by
  cases carried with
  | interrupted | missing => exact empty
  | failed _ _ performed =>
    rw [performed.transfer]
    exact (World.transfer_shown ..).trans empty
  | done => rw [World.transfer_shown, World.transfer_emptied]

theorem RanLine.transfer {result : Except Error (Option LineNumber)}
    (ran : program.RanLine dev mode line w result after) (empty : w.memory.transfer = none) :
    after.memory.transfer = none := by
  cases ran with
  | failed carried | followed _ carried | granted _ carried | refused _ carried
  | lost _ carried => exact (carriedOut carried).transfer empty

variable {count bound : Nat} {next : Option LineNumber}

theorem Arrives.transfer (empty : start.memory.transfer = none)
    (arrives : program.Arrives dev mode start count next w) : w.memory.transfer = none :=
  arrives.invariant (P := fun w => w.memory.transfer = none) (fun ran => ran.transfer) empty

/-- The register is empty when a run ends. -/
theorem Ran.transfer {result : Except Error (Option LineNumber)}
    (empty : start.memory.transfer = none) (ran : program.Ran dev mode start bound result after) :
    after.memory.transfer = none :=
  ran.invariant (P := fun w => w.memory.transfer = none) (fun ran => ran.transfer) empty

/-! ## Internal errors -/

/-- The device has answered with an error that is passed on, at a line or as it is. -/
def Answered (calls : List Call) (e : Error) : Prop :=
  ∃ call ∈ calls, ∃ e', call.error? = some e' ∧ (e = e' ∨ ∃ line, e = e'.orAtLine line)

theorem code_orAtLine (e : Error) (line : LineNumber) : (e.orAtLine line).code = e.code := by
  unfold Error.orAtLine
  split <;> rfl

/-- Whence an error comes at which the statement of a line is not carried out. -/
theorem CarriedOut.whence {e : Error} (carried : program.CarriedOut dev line w (.error e) after) :
    e = .breakAt line ∨ program.statement line = .error e ∨
      (∃ raised : Error, raised.Raised ∧ e = raised.orAtLine line) ∨ Answered after.journal e := by
  cases carried with
  | interrupted => exact .inl rfl
  | missing _ absent => exact .inr (.inl absent)
  | @failed _ made e _ _ _ performed =>
    rcases performed.fails e rfl with stuck | ⟨call, mem, answer⟩
    · exact .inr (.inr (.inl ⟨e, stuck.raised, rfl⟩))
    · refine .inr (.inr (.inr ⟨call, ?_, e, answer, .inr ⟨line, rfl⟩⟩))
      rw [performed.journal]
      exact List.mem_append_left _ (Option.mem_toList.2 mem)

theorem CarriedOut.internalError {e : Error}
    (carried : program.CarriedOut dev line w (.error e) after)
    (internal : e.code = .internalError) :
    Answered after.journal e := by
  rcases carried.whence with rfl | absent | ⟨raised, known, rfl⟩ | answered
  · cases internal
  · rw [statement] at absent
    split at absent <;> cases absent
    cases internal
  · rw [code_orAtLine] at internal
    exact absurd internal known.code_ne_internalError
  · exact answered

theorem RanLine.internalError {result : Except Error (Option LineNumber)} {e : Error}
    (ran : program.RanLine dev mode line w result after) (fails : result = .error e)
    (internal : e.code = .internalError) : Answered after.journal e := by
  cases ran with
  | failed carried =>
    cases fails
    exact (carriedOut carried).internalError internal
  | followed | granted =>
    obtain ⟨target, rfl⟩ := undefinedTarget_of_follow? fails
    cases internal
  | refused =>
    cases fails
    cases internal
  | lost =>
    cases fails
    exact ⟨_, List.mem_cons_self, e, rfl, .inl rfl⟩

/-- An internal error with which a run ends is one with which the device has answered. -/
theorem Ran.internalError {result : Except Error (Option LineNumber)} {e : Error}
    (ran : program.Ran dev mode start bound result after) (fails : result = .error e)
    (internal : e.code = .internalError) : Answered after.journal e := by
  cases ran with
  | finished | unfinished => cases fails
  | failed _ _ failed => exact (ranLine failed).internalError fails internal

end Program

/-! ## The discipline of the register -/

namespace Session

/-- The discipline of the transfer register, for every statement of every run. Each statement that
is about to be carried out finds the register empty, sets it if it succeeds, and leaves it empty if
it fails; the register is empty whenever the run is between two lines, or over. No evaluation ends
with an internal error, and no run, unless the device has answered with it. -/
theorem register_report (session : Session) (dev : Device (StateM (Host σ))) (mode : Mode)
    (bound : Nat) (host : Host σ) :
    let report := session.report dev mode bound host
    (∀ count next w,
      session.program.Arrives dev mode (session.started mode host) count next w →
      w.memory.transfer = none ∧
      ∀ line statement, next = some line → session.program.statement line = .ok statement →
        statement.Disciplined dev (w.fetched dev line statement)) ∧
    report.session.memory.transfer = none ∧
    (∀ (x : Expr) vars e vars', x.eval.run vars = .error e vars' → e.code ≠ .internalError) ∧
    (∀ e, report.ending = .failed e → e.code = .internalError →
      Program.Answered report.calls e) := by
  intro report
  obtain ⟨result, after, tells, ran⟩ := session.ran_report dev mode bound host
  refine ⟨fun count next w arrives => ?_, ?_, fun x vars e vars' failed => ?_,
    fun e failed internal => ?_⟩
  · have empty := arrives.transfer rfl
    refine ⟨empty, fun line statement _ _ => statement.disciplined ?_⟩
    exact (World.transfer_shown ..).trans empty
  · exact tells.transfer.trans (ran.transfer rfl)
  · exact (x.raises_eval vars e vars' failed).code_ne_internalError
  · have fails : result = .error e := tells.fails failed
    obtain ⟨call, mem, answered⟩ := ran.internalError fails internal
    refine ⟨call, ?_, answered⟩
    rw [show report.calls = _ from tells.calls]
    exact List.mem_reverse.2 mem

end Session

end LineBasic
