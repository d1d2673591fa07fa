import LineBasic.Proofs.Statement.Execute
import LineBasic.Session

/-!
# What a run can come to

The lines of a run are its steps. `CarriedOut` and `RanLine` say all that one step can come to, and
`Arrives` says to which lines, and in which worlds, a run comes. `Ran` takes a run of any bound
apart: it comes to its end, or to its bound, or to a line that fails.

Results:
1. `ranLine`: all that one line of a run can come to.
2. `ran`: all that a run can come to.
3. `Arrives.outcome_add`: a run goes on from where it has come to.
4. `Ran.outcome_of_le`: what a run comes to when it is over, it comes to with any higher bound.
5. `Ran.invariant`: what each line preserves, a run preserves.
6. `journal_suffix_of_le`: with a higher bound, a run begins as it does with a lower.
-/

namespace LineBasic

namespace World

variable {σ : Type} (dev : Device (StateM (Host σ)))

/-- When a device has been shown an event. -/
def shown (w : World σ) (event : Event) : World σ :=
  let after := w.record (.traced event (dev.trace event w.host).1) (dev.trace event w.host).2
  match (dev.trace event w.host).1 with
  | .ok () => after
  | .error reason => after.note (.traceFailed reason)

variable (w : World σ) (event : Event)

@[simp] theorem vars_shown : (w.shown dev event).memory.vars = w.memory.vars := by
  unfold shown
  split <;> rfl

@[simp] theorem transfer_shown : (w.shown dev event).memory.transfer = w.memory.transfer := by
  unfold shown
  split <;> rfl

@[simp] theorem journal_shown :
    (w.shown dev event).journal = .traced event (dev.trace event w.host).1 :: w.journal := by
  unfold shown
  split <;> rfl

@[simp] theorem host_shown : (w.shown dev event).host = (dev.trace event w.host).2 := by
  unfold shown
  split <;> rfl

theorem suffix_shown : w.journal <:+ (w.shown dev event).journal := by
  rw [journal_shown]
  exact List.suffix_cons _ _

/-- When a statement is about to be carried out. -/
def fetched (line : LineNumber) (statement : Statement) : World σ :=
  (w.heard.note (.executing line statement)).shown dev (.executing line statement)

theorem suffix_fetched (line : LineNumber) (statement : Statement) :
    w.journal <:+ (w.fetched dev line statement).journal :=
  suffix_shown dev (w.heard.note _) _

end World

/-- The run has not come to its bound: it is finished, or has failed. -/
def Ending.isOver : Ending → Bool
  | finished | failed _ => true
  | unfinished _ => false

namespace Program

/-! ## One line -/

section Line

variable {m : Type → Type} [Monad m] [Interruptible m]

/-- Comes to the statement of a line, which is shown. -/
def fetch (program : Program) (dev : Device m) (line : LineNumber) : Exec m Statement := do
  if ← Exec.poll then throw (.breakAt line)
  let statement ← Exec.ofExcept (program.statement line)
  Exec.note (.executing line statement)
  watch dev (.executing line statement)
  return statement

/-- Takes the transfer that a statement has left, and shows it. -/
def settle (dev : Device m) (line : LineNumber) (statement : Statement) : Exec m Transfer := do
  let transfer ← Exec.onMemory Memory.takeTransfer
  let vars ← Exec.onMemory fun mem => (.ok mem.vars, mem)
  watch dev (.executed line statement transfer vars)
  return transfer

/-- Carries out the statement of a line. -/
def carryOut (program : Program) (dev : Device m) (line : LineNumber) : Exec m Transfer := do
  let statement ← program.fetch dev line
  Exec.atLine line (statement.execute dev)
  settle dev line statement

/-- The mode has no part in a line but for the pause behind its statement. -/
theorem runLine_eq [LawfulMonad m] (program : Program) (dev : Device m) (mode : Mode)
    (line : LineNumber) :
    program.runLine dev mode line =
      (do
        let transfer ← program.carryOut dev line
        pause dev mode line
        Exec.ofExcept (program.follow? line transfer)) := by
  simp only [runLine, carryOut, fetch, settle, bind_assoc, pure_bind]
  congr 1
  funext interrupted
  cases interrupted <;> simp

end Line

variable {σ : Type} {program : Program} {dev : Device (StateM (Host σ))} {mode : Mode}
  {line : LineNumber} {statement : Statement} {w after : World σ}

theorem outcome_watch (dev : Device (StateM (Host σ))) (event : Event) (w : World σ) :
    (watch dev.journaled event).outcome w = (.ok (), w.shown dev event) := by
  simp only [Exec.outcome, watch, Device.journaled, Device.write, World.shown, bind, StateT.bind]
  rcases dev.trace event w.host with ⟨_ | _, host⟩ <;> rfl

theorem outcome_fetch (program : Program) (dev : Device (StateM (Host σ))) (line : LineNumber)
    (w : World σ) :
    (program.fetch dev.journaled line).outcome w =
      if w.host.interrupted then (.error (.breakAt line), w.heard)
      else
        match program.statement line with
        | .ok statement => (.ok statement, w.fetched dev line statement)
        | .error e => (.error e, w.heard) := by
  simp only [fetch, Exec.outcome_bind, Exec.outcome_poll]
  cases w.host.interrupted with
  | true => simp only [if_true, Exec.outcome_bind, Exec.outcome_throw]
  | false =>
    simp only [Bool.false_eq_true, if_false, Exec.outcome_bind, Exec.outcome_ofExcept,
      Exec.outcome_pure, Exec.outcome_note, outcome_watch]
    cases program.statement line <;> rfl

/-- The transfer that has been set is there to be taken. -/
theorem outcome_settle (dev : Device (StateM (Host σ))) (line : LineNumber)
    (statement : Statement) (t : Transfer) (w : World σ) :
    (settle dev.journaled line statement).outcome (w.setMemory (w.memory.setTransfer t)) =
      (.ok t, w.emptied.shown dev (.executed line statement t w.memory.vars)) := by
  simp only [settle, Exec.outcome_bind, Exec.outcome_onMemory, Memory.takeTransfer,
    Memory.setTransfer, World.memory_setMemory, outcome_watch, Exec.outcome_pure]
  rfl

/-- A statement that is begun is carried out. -/
theorem outcome_carryOut_of_clear (clear : w.host.interrupted = false)
    (found : program.statement line = .ok statement) :
    (program.carryOut dev.journaled line).outcome w =
      match (statement.perform dev.journaled).outcome (w.fetched dev line statement) with
      | (.ok t, after) =>
        (.ok t, after.emptied.shown dev (.executed line statement t after.memory.vars))
      | (.error e, after) => (.error (e.orAtLine line), after) := by
  simp only [carryOut, Exec.outcome_bind, outcome_fetch, clear, found, Bool.false_eq_true, if_false,
    Exec.outcome_atLine, Statement.outcome_execute]
  rcases (statement.perform dev.journaled).outcome (w.fetched dev line statement) with
    ⟨_ | _, after⟩
  · rfl
  · simp only [outcome_settle]

/-- All that carrying out the statement of a line can come to. -/
inductive CarriedOut (program : Program) (dev : Device (StateM (Host σ))) (line : LineNumber)
    (w : World σ) : Except Error Transfer → World σ → Prop
  /-- There was an interrupt. -/
  | interrupted (set : w.host.interrupted = true) :
      CarriedOut program dev line w (.error (.breakAt line)) w.heard
  /-- The line has no statement. -/
  | missing {e : Error} (clear : w.host.interrupted = false)
      (absent : program.statement line = .error e) :
      CarriedOut program dev line w (.error e) w.heard
  /-- The statement failed. -/
  | failed {statement : Statement} {made : Option Call} {e : Error} {after : World σ}
      (clear : w.host.interrupted = false) (found : program.statement line = .ok statement)
      (performed : statement.Performed dev (w.fetched dev line statement) made (.error e) after) :
      CarriedOut program dev line w (.error (e.orAtLine line)) after
  /-- The statement succeeded. -/
  | done {statement : Statement} {made : Option Call} {t : Transfer} {after : World σ}
      (clear : w.host.interrupted = false) (found : program.statement line = .ok statement)
      (performed : statement.Performed dev (w.fetched dev line statement) made (.ok t) after) :
      CarriedOut program dev line w (.ok t)
        (after.emptied.shown dev (.executed line statement t after.memory.vars))

theorem carriedOut {result : Except Error Transfer}
    (done : (program.carryOut dev.journaled line).outcome w = (result, after)) :
    program.CarriedOut dev line w result after := by
  cases interrupted : w.host.interrupted with
  | true =>
    rw [carryOut, Exec.outcome_bind, outcome_fetch, if_pos interrupted] at done
    cases done
    exact .interrupted interrupted
  | false =>
    cases found : program.statement line with
    | error e =>
      rw [carryOut, Exec.outcome_bind, outcome_fetch, interrupted, found] at done
      cases done
      exact .missing interrupted found
    | ok statement =>
      rw [outcome_carryOut_of_clear interrupted found] at done
      cases carried : (statement.perform dev.journaled).outcome (w.fetched dev line statement) with
      | mk result between =>
        obtain ⟨made, performed⟩ := Statement.performed carried
        rw [carried] at done
        cases result with
        | error e =>
          cases done
          exact .failed interrupted found performed
        | ok t =>
          cases done
          exact .done interrupted found performed

/-- A transfer that fails is a jump to a line that is not stored. -/
theorem jump_of_follow? {t : Transfer} {e : Error} (fails : program.follow? line t = .error e) :
    ∃ target, t = .jump target ∧ program.contains target = false ∧
      e = .undefinedTarget line target := by
  cases t with
  | next | halt => cases fails
  | jump target =>
    simp only [follow?] at fails
    split at fails
    next => cases fails
    next absent =>
      cases fails
      exact ⟨target, rfl, Bool.eq_false_iff.2 absent, rfl⟩

theorem undefinedTarget_of_follow? {t : Transfer} {e : Error}
    (fails : program.follow? line t = .error e) : ∃ target, e = .undefinedTarget line target := by
  obtain ⟨target, _, _, named⟩ := jump_of_follow? fails
  exact ⟨target, named⟩

/-- All that a line of a run can come to. -/
inductive RanLine (program : Program) (dev : Device (StateM (Host σ))) (mode : Mode)
    (line : LineNumber) (w : World σ) : Except Error (Option LineNumber) → World σ → Prop
  /-- Its statement was not carried out, or failed. -/
  | failed {e : Error} {after : World σ}
      (carried : (program.carryOut dev.journaled line).outcome w = (.error e, after)) :
      RanLine program dev mode line w (.error e) after
  /-- The run goes on by itself. -/
  | followed {t : Transfer} {after : World σ} (unasked : mode = .run)
      (carried : (program.carryOut dev.journaled line).outcome w = (.ok t, after)) :
      RanLine program dev mode line w (program.follow? line t) after
  /-- The device was asked, and let the run go on. -/
  | granted {t : Transfer} {after : World σ} (asked : mode = .step)
      (carried : (program.carryOut dev.journaled line).outcome w = (.ok t, after))
      (answer : (dev.step line after.host).1 = .ok true) :
      RanLine program dev mode line w (program.follow? line t)
        (after.record (.stepped line (.ok true)) (dev.step line after.host).2)
  /-- The device was asked, and stopped the run. -/
  | refused {t : Transfer} {after : World σ} (asked : mode = .step)
      (carried : (program.carryOut dev.journaled line).outcome w = (.ok t, after))
      (answer : (dev.step line after.host).1 = .ok false) :
      RanLine program dev mode line w (.error (.breakAt line))
        (after.record (.stepped line (.ok false)) (dev.step line after.host).2)
  /-- The device was asked, and failed. -/
  | lost {t : Transfer} {after : World σ} {e : Error} (asked : mode = .step)
      (carried : (program.carryOut dev.journaled line).outcome w = (.ok t, after))
      (answer : (dev.step line after.host).1 = .error e) :
      RanLine program dev mode line w (.error e)
        (after.record (.stepped line (.error e)) (dev.step line after.host).2)

theorem ranLine {result : Except Error (Option LineNumber)}
    (done : (program.runLine dev.journaled mode line).outcome w = (result, after)) :
    program.RanLine dev mode line w result after := by
  rw [runLine_eq, Exec.outcome_bind] at done
  cases known : (program.carryOut dev.journaled line).outcome w with
  | mk carried between =>
    rw [known] at done
    cases carried with
    | error e =>
      cases done
      exact .failed known
    | ok t =>
      cases mode with
      | run =>
        cases done
        exact .followed rfl known
      | step =>
        simp only [pause, Device.journaled, Exec.outcome_bind, Exec.outcome_call] at done
        cases answer : (dev.step line between.host).1 with
        | error e =>
          rw [answer] at done
          cases done
          exact .lost rfl known answer
        | ok go =>
          rw [answer] at done
          cases go with
          | true =>
            cases done
            exact .granted rfl known answer
          | false =>
            cases done
            exact .refused rfl known answer

/-! ## Many lines -/

/-- Where a run from a world on comes to when it has carried out some lines: to another line, or to
its end. -/
inductive Arrives (program : Program) (dev : Device (StateM (Host σ))) (mode : Mode)
    (start : World σ) : Nat → Option LineNumber → World σ → Prop
  | start : Arrives program dev mode start 0 program.first? start
  | next {count : Nat} {line : LineNumber} {w after : World σ} {next : Option LineNumber} :
      Arrives program dev mode start count (some line) w →
      (program.runLine dev.journaled mode line).outcome w = (.ok next, after) →
      Arrives program dev mode start (count + 1) next after

/-- All that a run can come to within a bound. -/
inductive Ran (program : Program) (dev : Device (StateM (Host σ))) (mode : Mode)
    (start : World σ) (bound : Nat) : Except Error (Option LineNumber) → World σ → Prop
  /-- The run is at its end. -/
  | finished {count : Nat} {after : World σ} (within : count ≤ bound)
      (arrives : program.Arrives dev mode start count none after) :
      Ran program dev mode start bound (.ok none) after
  /-- The run is at its bound. -/
  | unfinished {line : LineNumber} {after : World σ}
      (arrives : program.Arrives dev mode start bound (some line) after) :
      Ran program dev mode start bound (.ok (some line)) after
  /-- A line of the run failed. -/
  | failed {count : Nat} {line : LineNumber} {w after : World σ} {e : Error}
      (within : count < bound)
      (arrives : program.Arrives dev mode start count (some line) w)
      (failed : (program.runLine dev.journaled mode line).outcome w = (.error e, after)) :
      Ran program dev mode start bound (.error e) after

variable {start : World σ} {bound count : Nat} {next : Option LineNumber}

theorem outcome_runLines_none (bound : Nat) (w : World σ) :
    (program.runLines dev.journaled mode bound none).outcome w = (.ok none, w) := by
  cases bound <;> rfl

/-- A run goes on from where it has come to. -/
theorem Arrives.outcome_add (arrives : program.Arrives dev mode start count next w) (more : Nat) :
    (program.runLines dev.journaled mode (count + more) program.first?).outcome start =
      (program.runLines dev.journaled mode more next).outcome w := by
  induction arrives generalizing more with
  | start => rw [Nat.zero_add]
  | next _ done ih =>
    rw [Nat.succ_add_eq_add_succ, ih (more + 1), runLines, Exec.outcome_bind, done]

/-- The next line of a run is carried out from where the run has come to. -/
theorem Arrives.outcome_succ (arrives : program.Arrives dev mode start count (some line) w) :
    (program.runLines dev.journaled mode (count + 1) program.first?).outcome start =
      (program.runLine dev.journaled mode line).outcome w := by
  rw [arrives.outcome_add 1, runLines, Exec.outcome_bind]
  rcases (program.runLine dev.journaled mode line).outcome w with ⟨_ | _ | _, _⟩ <;> rfl

/-- A line that fails ends the run, however high the bound. -/
theorem Arrives.outcome_failed {e : Error}
    (arrives : program.Arrives dev mode start count (some line) w)
    (failed : (program.runLine dev.journaled mode line).outcome w = (.error e, after))
    (within : count < bound) :
    (program.runLines dev.journaled mode bound program.first?).outcome start =
      (.error e, after) := by
  obtain ⟨more, rfl⟩ := Nat.exists_eq_add_of_lt within
  rw [Nat.add_assoc, arrives.outcome_add, runLines, Exec.outcome_bind, failed]

/-- A run that has come to its end stays there, however high the bound. -/
theorem Arrives.outcome_finished (arrives : program.Arrives dev mode start count none w)
    (within : count ≤ bound) :
    (program.runLines dev.journaled mode bound program.first?).outcome start = (.ok none, w) := by
  obtain ⟨more, rfl⟩ := Nat.exists_eq_add_of_le within
  rw [arrives.outcome_add, outcome_runLines_none]

theorem Arrives.ran {result : Except Error (Option LineNumber)} {more : Nat}
    (arrives : program.Arrives dev mode start count next w)
    (done : (program.runLines dev.journaled mode more next).outcome w = (result, after)) :
    program.Ran dev mode start (count + more) result after := by
  induction more generalizing count next w with
  | zero =>
    cases next with
    | none =>
      cases done
      exact .finished (Nat.le_refl count) arrives
    | some line =>
      cases done
      exact .unfinished arrives
  | succ more ih =>
    cases next with
    | none =>
      cases done
      exact .finished (Nat.le_add_right count _) arrives
    | some line =>
      rw [runLines, Exec.outcome_bind] at done
      cases known : (program.runLine dev.journaled mode line).outcome w with
      | mk carried between =>
        rw [known] at done
        cases carried with
        | error e =>
          cases done
          exact .failed (Nat.lt_add_of_pos_right more.succ_pos) arrives known
        | ok next =>
          have ran := ih (arrives.next known) done
          rwa [Nat.add_right_comm] at ran

/-- All that a run can come to. -/
theorem ran {result : Except Error (Option LineNumber)}
    (done : (program.runLines dev.journaled mode bound program.first?).outcome start =
      (result, after)) :
    program.Ran dev mode start bound result after := by
  have ran := Arrives.start.ran done
  rwa [Nat.zero_add] at ran

/-- What a run has come to when it is over, it comes to with any higher bound. -/
theorem Ran.outcome_of_le {result : Except Error (Option LineNumber)} {higher : Nat}
    (ran : program.Ran dev mode start bound result after) (ended : (ending result).isOver = true)
    (le : bound ≤ higher) :
    (program.runLines dev.journaled mode higher program.first?).outcome start = (result, after) := by
  cases ran with
  | finished within arrives => exact arrives.outcome_finished (within.trans le)
  | unfinished => cases ended
  | failed within arrives failed => exact arrives.outcome_failed failed (within.trans_le le)

theorem Arrives.earlier (arrives : program.Arrives dev mode start count next w)
    (lt : bound < count) : ∃ line w, program.Arrives dev mode start bound (some line) w := by
  induction arrives with
  | start => cases lt
  | next arrives _ ih =>
    rcases Nat.lt_succ_iff_lt_or_eq.1 lt with lt | rfl
    · exact ih lt
    · exact ⟨_, _, arrives⟩

variable {P : World σ → Prop}

/-- What each line preserves holds wherever a run comes. -/
theorem Arrives.invariant
    (preserved : ∀ {line w result after}, program.RanLine dev mode line w result after →
      P w → P after)
    (holds : P start) (arrives : program.Arrives dev mode start count next w) : P w := by
  induction arrives with
  | start => exact holds
  | next _ done ih => exact preserved (ranLine done) ih

/-- What each line preserves, also one that fails, holds at the end of a run. -/
theorem Ran.invariant {result : Except Error (Option LineNumber)}
    (preserved : ∀ {line w result after}, program.RanLine dev mode line w result after →
      P w → P after)
    (holds : P start) (ran : program.Ran dev mode start bound result after) : P after := by
  cases ran with
  | finished _ arrives | unfinished arrives => exact arrives.invariant preserved holds
  | failed _ arrives failed =>
    exact preserved (ranLine failed) (arrives.invariant preserved holds)

/-! ## The journal grows -/

theorem CarriedOut.journal_suffix {result : Except Error Transfer}
    (carried : program.CarriedOut dev line w result after) : w.journal <:+ after.journal := by
  cases carried with
  | interrupted | missing => exact List.suffix_rfl
  | failed _ _ performed => exact (World.suffix_fetched ..).trans performed.journal_suffix
  | @done statement _ t between _ _ performed =>
    have grown := (World.suffix_fetched ..).trans performed.journal_suffix
    exact grown.trans (World.suffix_shown dev between.emptied _)

theorem RanLine.journal_suffix {result : Except Error (Option LineNumber)}
    (ran : program.RanLine dev mode line w result after) : w.journal <:+ after.journal := by
  cases ran with
  | failed carried | followed _ carried => exact (carriedOut carried).journal_suffix
  | granted _ carried | refused _ carried | lost _ carried =>
    exact (carriedOut carried).journal_suffix.trans (List.suffix_cons _ _)

theorem journal_suffix_runLines (program : Program) (dev : Device (StateM (Host σ))) (mode : Mode)
    (bound : Nat) (next : Option LineNumber) (w : World σ) :
    w.journal <:+ ((program.runLines dev.journaled mode bound next).outcome w).2.journal := by
  induction bound generalizing next w with
  | zero => cases next <;> exact List.suffix_rfl
  | succ bound ih =>
    cases next with
    | none => exact List.suffix_rfl
    | some line =>
      rw [runLines, Exec.outcome_bind]
      cases known : (program.runLine dev.journaled mode line).outcome w with
      | mk result between =>
        have grown := (ranLine known).journal_suffix
        cases result with
        | error e => exact grown
        | ok next => exact grown.trans (ih next between)

/-- With a higher bound, a run makes the same calls first. -/
theorem journal_suffix_of_le {lower : Nat} (le : lower ≤ bound) :
    ((program.runLines dev.journaled mode lower program.first?).outcome start).2.journal <:+
      ((program.runLines dev.journaled mode bound program.first?).outcome start).2.journal := by
  cases known : (program.runLines dev.journaled mode lower program.first?).outcome start with
  | mk result w =>
    cases ran known with
    | finished within arrives =>
      rw [arrives.outcome_finished (within.trans le)]
    | unfinished arrives =>
      obtain ⟨more, rfl⟩ := Nat.exists_eq_add_of_le le
      rw [arrives.outcome_add]
      exact journal_suffix_runLines _ _ _ _ _ _
    | failed within arrives failed =>
      rw [arrives.outcome_failed failed (Nat.lt_of_lt_of_le within le)]

end Program

end LineBasic
