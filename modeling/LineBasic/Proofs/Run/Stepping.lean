import LineBasic.Proofs.Run.ControlFlow
import LineBasic.Proofs.Run.Parallel

/-!
# Running step by step

A run that asks behind each line whether to go on does what the run does that asks nothing, as far
as it is let. Behind each statement that has been carried out it asks once. While the answer is
yes, both runs are the same; when it is no for the first time, it stops there, whatever that
statement was.

Results:
1. `RanLine.asks`: behind each statement the device is asked once.
2. `RanLine.compared`, `Ran.compared`: one line, and whole runs, side by side.
3. `Session.stepping_report`: running step by step refines running.
-/

namespace LineBasic

/-- The lines whose statements have been carried out. -/
def executedIn (events : List Event) : List LineNumber :=
  events.filterMap fun
    | .executing .. => none
    | .executed line .. => some line

theorem eventsOf_seenIn (calls : List Call) : eventsOf (seenIn calls) = eventsOf calls := by
  rw [eventsOf, seenIn, List.filterMap_filterMap, eventsOf]
  congr 1
  funext call
  cases call <;> rfl

/-! ## What has been asked -/

namespace World

variable {σ : Type}

/-- The questions whether to go on, in their order. -/
def steps (w : World σ) : List (LineNumber × Except Error Bool) := stepsIn w.journal.reverse

variable {w : World σ} {dev : Device (StateM (Host σ))}

@[simp] theorem steps_shown (event : Event) : (w.shown dev event).steps = w.steps := by
  simp [steps, stepsIn, Call.step?]

@[simp] theorem steps_fetched (line : LineNumber) (statement : Statement) :
    (w.fetched dev line statement).steps = w.steps :=
  steps_shown _

@[simp] theorem steps_stepped (line : LineNumber) (answer : Except Error Bool) (host : Host σ) :
    (w.record (.stepped line answer) host).steps = w.steps ++ [(line, answer)] := by
  simp [steps, stepsIn, Call.step?]

@[simp] theorem steps_emptied : w.emptied.steps = w.steps := rfl

/-- Behind each statement that has been carried out it has been asked once whether to go on. -/
def Asked (w : World σ) : Prop := w.steps.map (·.1) = executedIn w.events

theorem asked_of_fresh (fresh : w.journal = []) : w.Asked := by
  rw [Asked, steps, events, fresh]
  rfl

end World

/-- A statement asks no question by itself. -/
theorem Statement.Performed.steps {σ : Type} {statement : Statement}
    {dev : Device (StateM (Host σ))} {w after : World σ} {made : Option Call}
    {result : Except Error Transfer} (performed : statement.Performed dev w made result after) :
    after.steps = w.steps := by
  rw [World.steps, World.steps, performed.journal]
  cases made with
  | none => rfl
  | some call => simp [stepsIn, Call.step?_of_isTalk (performed.talk call rfl).1]

namespace Program

variable {σ τ : Type} {program : Program} {dev : Device (StateM (Host σ))} {mode : Mode}
  {line : LineNumber} {w after start : World σ}

theorem CarriedOut.steps {result : Except Error Transfer}
    (carried : program.CarriedOut dev line w result after) : after.steps = w.steps := by
  cases carried with
  | interrupted | missing => rfl
  | failed _ _ performed => simp [performed.steps]
  | done _ _ performed => simp [performed.steps]

theorem CarriedOut.steps_stepped {result : Except Error Transfer}
    (carried : program.CarriedOut dev line w result after) (answer : Except Error Bool)
    (host : Host σ) :
    (after.record (.stepped line answer) host).steps = w.steps ++ [(line, answer)] := by
  rw [World.steps_stepped, carried.steps]

theorem CarriedOut.executed_ok {t : Transfer}
    (carried : program.CarriedOut dev line w (.ok t) after) :
    executedIn after.events = executedIn w.events ++ [line] := by
  obtain ⟨s, vars, _, _, events⟩ := carried.events_ok
  rw [events]
  simp [executedIn]

theorem CarriedOut.executed_error {e : Error}
    (carried : program.CarriedOut dev line w (.error e) after) :
    executedIn after.events = executedIn w.events := by
  cases carried with
  | interrupted | missing => rfl
  | failed _ _ performed => simp [performed.events, executedIn]

/-- Behind each statement that has been carried out the device is asked once, and else not. -/
theorem RanLine.asks {result : Except Error (Option LineNumber)}
    (ran : program.RanLine dev .step line w result after) (asked : w.Asked) : after.Asked := by
  unfold World.Asked at asked ⊢
  cases ran with
  | failed carried =>
    rw [(carriedOut carried).steps, (carriedOut carried).executed_error, asked]
  | followed unasked => cases unasked
  | granted _ carried | refused _ carried | lost _ carried =>
    rw [(carriedOut carried).steps_stepped, World.events_stepped, (carriedOut carried).executed_ok,
      List.map_append, asked]
    rfl

variable {count bound : Nat} {next : Option LineNumber}

theorem Arrives.asks (fresh : start.journal = [])
    (arrives : program.Arrives dev .step start count next w) : w.Asked :=
  arrives.invariant (fun ran => ran.asks) (World.asked_of_fresh fresh)

/-- A run that is stepped through asks once behind each statement that it has carried out. -/
theorem Ran.asks {result : Except Error (Option LineNumber)} (fresh : start.journal = [])
    (ran : program.Ran dev .step start bound result after) : after.Asked :=
  ran.invariant (fun ran => ran.asks) (World.asked_of_fresh fresh)

/-! ## What has been carried out -/

theorem RanLine.executed {result : Except Error (Option LineNumber)}
    (ran : program.RanLine dev mode line w result after) (ok : result = .ok next) :
    executedIn after.events = executedIn w.events ++ [line] := by
  cases ran with
  | followed _ carried => exact (carriedOut carried).executed_ok
  | granted _ carried =>
    rw [World.events_stepped]
    exact (carriedOut carried).executed_ok
  | failed | refused | lost => cases ok

/-- A run that has come to a line has carried out as many statements as it has taken lines. -/
theorem Arrives.length_executed (fresh : start.journal = [])
    (arrives : program.Arrives dev mode start count next w) :
    (executedIn w.events).length = count := by
  induction arrives with
  | start =>
    rw [World.events, fresh]
    rfl
  | next _ done ih =>
    rw [(ranLine done).executed rfl, List.length_append, ih, List.length_singleton]

/-! ## Two runs side by side -/

theorem outcome_runLine_run (program : Program) (dev : Device (StateM (Host σ)))
    (line : LineNumber) (w : World σ) :
    (program.runLine dev.journaled .run line).outcome w =
      match (program.carryOut dev.journaled line).outcome w with
      | (.ok t, w) => (program.follow? line t, w)
      | (.error e, w) => (.error e, w) := by
  rw [runLine_eq, Exec.outcome_bind]
  rcases (program.carryOut dev.journaled line).outcome w with ⟨_ | _, _⟩ <;> rfl

/-- The device is asked behind a statement that has been carried out. -/
theorem outcome_runLine_step (program : Program) (dev : Device (StateM (Host σ)))
    (line : LineNumber) (w : World σ) :
    (program.runLine dev.journaled .step line).outcome w =
      match (program.carryOut dev.journaled line).outcome w with
      | (.ok t, w) =>
        let answer := (dev.step line w.host).1
        let after := w.record (.stepped line answer) (dev.step line w.host).2
        match answer with
        | .ok true => (program.follow? line t, after)
        | .ok false => (.error (.breakAt line), after)
        | .error e => (.error e, after)
      | (.error e, w) => (.error e, w) := by
  rw [runLine_eq, Exec.outcome_bind]
  rcases (program.carryOut dev.journaled line).outcome w with ⟨_ | t, w⟩
  · rfl
  · simp only [pause, Device.journaled, Exec.outcome_bind, Exec.outcome_call]
    rcases (dev.step line w.host).1 with _ | _ | _ <;> rfl

variable {a : Device (StateM (Host σ))} {b : Device (StateM (Host τ))} {v before behind : World τ}

theorem outcome_carryOut (alike : World.Alike a b w v) {carried : Except Error Transfer}
    (done : (program.carryOut b.journaled line).outcome v = (carried, behind)) :
    ∃ after, (program.carryOut a.journaled line).outcome w = (carried, after) ∧
      World.Alike a b after behind := by
  obtain ⟨same, alike⟩ := program.parallel_carryOut line w v alike
  rw [done] at same alike
  exact ⟨_, Prod.ext same.symm rfl, alike⟩

/-- How a line of a run that is stepped through compares with that line of the run that is not. -/
inductive ComparedLine (program : Program) (a : Device (StateM (Host σ))) (line : LineNumber)
    (b : Device (StateM (Host τ))) (w : World σ) (v : World τ) :
    Except Error (Option LineNumber) → World τ → Prop
  /-- The run is let go on, if it is asked about: both come to the same. -/
  | through {result : Except Error (Option LineNumber)} {after : World σ} {behind : World τ}
      (same : (program.runLine a.journaled .run line).outcome w = (result, after))
      (alike : World.Alike a b after behind)
      (granted : ∀ step ∈ behind.steps, step ∈ v.steps ∨ step.2 = .ok true) :
      ComparedLine program a line b w v result behind
  /-- The run is not let go on. Until then both have come to the same. -/
  | held {result : Except Error (Option LineNumber)} {after : World σ} {behind : World τ}
      {answer : Except Error Bool} {e : Error}
      (done : (program.runLine a.journaled .run line).outcome w = (result, after))
      (alike : World.Alike a b after behind) (asked : behind.steps = v.steps ++ [(line, answer)])
      (denied : answer ≠ .ok true) (named : answer = .ok false → e = .breakAt line) :
      ComparedLine program a line b w v (.error e) behind

/-- One line of two runs side by side. -/
theorem RanLine.compared {result : Except Error (Option LineNumber)} (alike : World.Alike a b w v)
    (ran : program.RanLine b .step line v result behind) :
    program.ComparedLine a line b w v result behind := by
  -- The statement comes to the same in both runs; then only one of them is asked.
  cases ran with
  | failed carried =>
    obtain ⟨after, done, alike⟩ := outcome_carryOut alike carried
    refine .through (by rw [outcome_runLine_run, done]) alike fun step mem => .inl ?_
    rwa [(carriedOut carried).steps] at mem
  | followed unasked => cases unasked
  | granted _ carried answer =>
    obtain ⟨after, done, alike⟩ := outcome_carryOut alike carried
    refine .through (by rw [outcome_runLine_run, done]) (alike.stepped line _) fun step mem => ?_
    rw [(carriedOut carried).steps_stepped] at mem
    exact (List.mem_append.1 mem).imp_right fun last => by rw [List.mem_singleton.1 last]
  | refused _ carried answer =>
    obtain ⟨after, done, alike⟩ := outcome_carryOut alike carried
    exact .held (by rw [outcome_runLine_run, done]) (alike.stepped line _)
      ((carriedOut carried).steps_stepped _ _) nofun fun _ => rfl
  | lost _ carried answer =>
    obtain ⟨after, done, alike⟩ := outcome_carryOut alike carried
    exact .held (by rw [outcome_runLine_run, done]) (alike.stepped line _)
      ((carriedOut carried).steps_stepped _ _) nofun nofun

variable {start' : World τ}

/-- Where a run comes that is stepped through, the run comes that is not, and the device has let it
go on behind each line. -/
theorem Arrives.compared (alike : World.Alike a b start start') (fresh : start'.journal = [])
    (arrives : program.Arrives b .step start' count next v) :
    (∃ w, program.Arrives a .run start count next w ∧ World.Alike a b w v) ∧
      ∀ step ∈ v.steps, step.2 = .ok true := by
  induction arrives with
  | start =>
    refine ⟨⟨start, .start, alike⟩, ?_⟩
    rw [World.steps, fresh]
    exact nofun
  | next _ done ih =>
    obtain ⟨⟨w, arrives, alike⟩, before⟩ := ih
    cases (ranLine done).compared alike with
    | @through _ after _ same alike granted =>
      refine ⟨⟨after, arrives.next same, alike⟩, fun step mem => ?_⟩
      exact (granted step mem).elim (before step) id

/-- How a run that is stepped through compares with the run that is not. -/
inductive Compared (program : Program) (a : Device (StateM (Host σ)))
    (b : Device (StateM (Host τ))) (start : World σ) (bound : Nat) :
    Except Error (Option LineNumber) → World τ → Prop
  /-- The run is let go on wherever it asks: both come to the same. -/
  | through {result : Except Error (Option LineNumber)} {after : World σ} {behind : World τ}
      (same : (program.runLines a.journaled .run bound program.first?).outcome start =
        (result, after))
      (alike : World.Alike a b after behind) (granted : ∀ step ∈ behind.steps, step.2 = .ok true) :
      Compared program a b start bound result behind
  /-- The run is not let go on behind some line. Until then both have come to the same. -/
  | held {count : Nat} {result : Except Error (Option LineNumber)} {after : World σ}
      {behind : World τ} {earlier : List (LineNumber × Except Error Bool)} {line : LineNumber}
      {answer : Except Error Bool} {e : Error}
      (done : (program.runLines a.journaled .run (count + 1) program.first?).outcome start =
        (result, after))
      (alike : World.Alike a b after behind) (asked : behind.steps = earlier ++ [(line, answer)])
      (length : earlier.length = count) (granted : ∀ step ∈ earlier, step.2 = .ok true)
      (denied : answer ≠ .ok true) (named : answer = .ok false → e = .breakAt line) :
      Compared program a b start bound (.error e) behind

/-- Two runs side by side. -/
theorem Ran.compared {result : Except Error (Option LineNumber)}
    (alike : World.Alike a b start start') (fresh : start'.journal = [])
    (ran : program.Ran b .step start' bound result behind) :
    program.Compared a b start bound result behind := by
  cases ran with
  | finished within arrives =>
    obtain ⟨⟨w, arrives, alike⟩, granted⟩ := arrives.compared alike fresh
    exact .through (arrives.outcome_finished within) alike granted
  | unfinished arrives =>
    obtain ⟨⟨w, arrives, alike⟩, granted⟩ := arrives.compared alike fresh
    exact .through (arrives.outcome_add 0) alike granted
  | @failed count line v _ e within arrives failed =>
    obtain ⟨⟨w, arrives', alike⟩, before⟩ := arrives.compared alike fresh
    cases (ranLine failed).compared alike with
    | through same alike granted =>
      refine .through (arrives'.outcome_failed same within) alike fun step mem => ?_
      exact (granted step mem).elim (before step) id
    | held done alike asked denied named =>
      -- Each line before this one has been asked about, so it is the answer of index `count`.
      refine .held (arrives'.outcome_succ.trans done) alike asked ?_ before denied named
      have asks : v.steps.map (·.1) = executedIn v.events := arrives.asks fresh
      rw [← arrives.length_executed fresh, ← asks, List.length_map]

end Program

/-! ## Stepping through a program -/

namespace Session

variable {σ τ : Type} {a : Device (StateM (Host σ))} {b : Device (StateM (Host τ))} {r : σ} {s : τ}

theorem alike_started (alike : a.Alike ⟨r, false⟩ b ⟨s, false⟩) (session : Session) (i j : Bool) :
    World.Alike a b (session.started .run ⟨r, i⟩) (session.started .step ⟨s, j⟩) :=
  ⟨⟨rfl, rfl⟩, rfl, alike⟩

/-- When all earlier answers were yes, the one that is no is the last. -/
theorem last_of_refused {earlier : List (LineNumber × Except Error Bool)} {k : Nat}
    {line last : LineNumber} {answer : Except Error Bool}
    (granted : ∀ step ∈ earlier, step.2 = .ok true)
    (refused : (earlier ++ [(last, answer)])[k]? = some (line, .ok false)) :
    k = earlier.length ∧ last = line ∧ answer = .ok false := by
  rcases Nat.lt_or_ge k earlier.length with lt | ge
  · rw [List.getElem?_append_left lt] at refused
    cases granted _ (List.mem_of_getElem? refused)
  · rw [List.getElem?_append_right ge, List.getElem?_singleton] at refused
    split at refused
    next first =>
      cases refused
      exact ⟨Nat.le_antisymm (Nat.le_of_sub_eq_zero first) ge, rfl, rfl⟩
    next => cases refused

/-- Reports of alike worlds tell the same of the program. -/
theorem seen_of_alike {left : Report σ} {right : Report τ} {w : World σ} {v : World τ}
    {result result' : Except Error (Option LineNumber)} (tells : left.Tells result w)
    (tells' : right.Tells result' v) (alike : World.Alike a b w v) :
    seenIn right.calls = seenIn left.calls ∧
      right.session.memory.vars = left.session.memory.vars := by
  rw [tells.calls, tells'.calls, tells.vars, tells'.vars]
  refine ⟨?_, alike.memory.vars⟩
  have seen := alike.seen
  simp only [seenIn, List.filterMap_reverse] at seen ⊢
  rw [seen]

/-- A run that is stepped through asks once behind each statement that it has carried out. -/
theorem steps_report (session : Session) (dev : Device (StateM (Host σ))) (bound : Nat)
    (host : Host σ) :
    let report := session.report dev .step bound host
    (stepsIn report.calls).map (·.1) = executedIn (eventsOf report.calls) := by
  obtain ⟨result, w, tells, ran⟩ := session.ran_report dev .step bound host
  intro report
  rw [show report.calls = _ from tells.calls]
  exact ran.asks rfl

/-- While the answer is yes, both runs are the same. -/
theorem same_of_granted (alike : a.Alike ⟨r, false⟩ b ⟨s, false⟩) (session : Session)
    (bound : Nat) (i j : Bool) :
    let run := session.report a .run bound ⟨r, i⟩
    let step := session.report b .step bound ⟨s, j⟩
    (∀ asked ∈ stepsIn step.calls, asked.2 = .ok true) →
      step.ending = run.ending ∧ seenIn step.calls = seenIn run.calls ∧
        step.session.memory.vars = run.session.memory.vars := by
  intro run step allowed
  obtain ⟨result, behind, tells, ran⟩ := session.ran_report b .step bound ⟨s, j⟩
  have steps : stepsIn step.calls = behind.steps := congrArg stepsIn tells.calls
  cases ran.compared (session.alike_started alike i j) rfl with
  | through same alike granted =>
    have tells' := tells_report same
    exact ⟨tells.ending.trans tells'.ending.symm, seen_of_alike tells' tells alike⟩
  | @held _ _ _ _ _ line answer _ _ _ asked _ _ denied _ =>
    refine absurd (allowed (line, answer) ?_) denied
    rw [steps, asked]
    exact List.mem_append_right _ List.mem_cons_self

/-- When the answer is no for the first time, the run ends as far as both are the same. -/
theorem held_of_refused (alike : a.Alike ⟨r, false⟩ b ⟨s, false⟩) (session : Session)
    (bound : Nat) (i j : Bool) (k : Nat) (line : LineNumber) :
    let run := session.report a .run (k + 1) ⟨r, i⟩
    let step := session.report b .step bound ⟨s, j⟩
    (stepsIn step.calls)[k]? = some (line, .ok false) →
      step.ending = .failed (.breakAt line) ∧ seenIn step.calls = seenIn run.calls ∧
        step.session.memory.vars = run.session.memory.vars ∧
        (executedIn (eventsOf run.calls)).length = k + 1 ∧
        (executedIn (eventsOf run.calls))[k]? = some line := by
  intro run step refused
  obtain ⟨result, behind, tells, ran⟩ := session.ran_report b .step bound ⟨s, j⟩
  have steps : stepsIn step.calls = behind.steps := congrArg stepsIn tells.calls
  rw [steps] at refused
  cases ran.compared (session.alike_started alike i j) rfl with
  | through same alike granted => cases granted _ (List.mem_of_getElem? refused)
  | @held _ _ _ _ earlier last answer _ done alike asked length granted _ named =>
    rw [asked] at refused
    obtain ⟨rfl, rfl, rfl⟩ := last_of_refused granted refused
    subst length
    have tells' := tells_report done
    obtain ⟨seen, vars⟩ := seen_of_alike tells' tells alike
    have executed : executedIn (eventsOf run.calls) = earlier.map (·.1) ++ [last] := by
      rw [← eventsOf_seenIn, ← seen, eventsOf_seenIn, ← steps_report, steps, asked, List.map_append]
      rfl
    refine ⟨?_, seen, vars, ?_, ?_⟩
    · rw [show step.ending = _ from tells.ending, named rfl]
      rfl
    · simp [executed]
    · simp [executed]

/-- Running step by step refines running, on devices that answer alike. Behind each statement that
has been carried out it is asked once whether to go on. If the answer is yes wherever it is asked,
both runs are the same. If it is no behind the statement of index `k`, for the first time, the run
ends there, and is the same as the beginning of the other, as far as that statement. -/
theorem stepping_report (alike : a.Alike ⟨r, false⟩ b ⟨s, false⟩) (session : Session)
    (bound : Nat) (i j : Bool) :
    let run (bound : Nat) := session.report a .run bound ⟨r, i⟩
    let step := session.report b .step bound ⟨s, j⟩
    (stepsIn step.calls).map (·.1) = executedIn (eventsOf step.calls) ∧
    ((∀ asked ∈ stepsIn step.calls, asked.2 = .ok true) →
      step.ending = (run bound).ending ∧ seenIn step.calls = seenIn (run bound).calls ∧
      step.session.memory.vars = (run bound).session.memory.vars) ∧
    (∀ k line, (stepsIn step.calls)[k]? = some (line, .ok false) →
      step.ending = .failed (.breakAt line) ∧
      seenIn step.calls = seenIn (run (k + 1)).calls ∧
      step.session.memory.vars = (run (k + 1)).session.memory.vars ∧
      (executedIn (eventsOf (run (k + 1)).calls)).length = k + 1 ∧
      (executedIn (eventsOf (run (k + 1)).calls))[k]? = some line ∧
      ∀ more, k + 1 ≤ more → (run (k + 1)).calls <+: (run more).calls) := by
  refine ⟨session.steps_report b bound ⟨s, j⟩, same_of_granted alike session bound i j, ?_⟩
  intro k line refused
  obtain ⟨ending, seen, vars, length, last⟩ :=
    held_of_refused alike session bound i j k line refused
  exact ⟨ending, seen, vars, length, last, fun more le => calls_report_prefix le _⟩

/-- A program that is left behind a jump to a line that is not stored. -/
theorem stepping_report_jump :
    let session := ((Session.new .warning).enter "10 GOTO 20").2
    let dev : Device (StateM (Host Unit)) :=
      ⟨fun _ => pure (.ok ()), fun _ => pure (.ok ""), fun _ => pure (.ok false),
        fun _ => pure (.ok ())⟩
    let step := session.report dev .step 5 ⟨(), true⟩
    dev.Alike ⟨(), false⟩ dev ⟨(), false⟩ ∧
      (session.report dev .run 5 ⟨(), true⟩).ending = .failed (.undefinedTarget 10 20) ∧
      (stepsIn step.calls).map (·.1) = [10] ∧ step.ending = .failed (.breakAt 10) := by
  intro session dev step
  have alike : dev.Alike ⟨(), false⟩ dev ⟨(), false⟩ := .refl (fun _ _ => rfl) _
  obtain ⟨asks, _, held⟩ := stepping_report alike session 5 true true
  have executed : executedIn (eventsOf step.calls) = [10] := by decide +kernel
  refine ⟨alike, by decide +kernel, asks.trans executed, (held 0 10 ?_).1⟩
  decide +kernel

end Session

end LineBasic
