import LineBasic.Proofs.Device.Blind
import LineBasic.Proofs.Program.Renumbering
import LineBasic.Proofs.Run.Determined
import LineBasic.Proofs.Run.Failure
import LineBasic.Proofs.Run.Register
import LineBasic.Proofs.Run.Stepping

/-!
# Runs of renumbered programs

A run uses the numbers of lines for nothing but their order and to find a line. So a renumbered
program does what the program did, line by line, and names the new numbers where it names lines.
The device is shown lines and statements, so this needs one that makes nothing of them
(`Device.Blind`).

Results:
1. `World.Renumbered.talk`: what statements do keeps two worlds the same but for the numbers.
2. `RanLine.renumbered`, `Ran.renumbered`: one line, and whole runs.
3. `Session.renumbered_report`: renumbering a program does not change what it does.
-/

namespace LineBasic

/-! ## What is shown of renumbered lines -/

section

variable (f : LineNumber → LineNumber)

/-- An event when the lines have other numbers. -/
def Event.renumber : Event → Event
  | executing line statement => executing (f line) (statement.renumber f)
  | executed line statement transfer vars =>
    executed (f line) (statement.renumber f) (transfer.renumber f) vars

/-- A call when the lines have other numbers. -/
def Call.renumber : Call → Call
  | printed text answer => printed text answer
  | asked prompt answer => asked prompt answer
  | stepped line answer => stepped (f line) answer
  | traced event answer => traced (event.renumber f) answer

/-- An error when the lines have other numbers. -/
def Error.renumber (e : Error) : Error := e.atLine (e.line.map f)

/-- How the error of a run changes when the lines have other numbers. -/
inductive Error.Renumbered (calls : List Call) : Error → Error → Prop
  /-- It names the new line. No line that is not there is named, unless by the device. -/
  | moved {e : Error} (own : e.code = .undefinedLine → Program.Answered calls e) :
      Error.Renumbered calls e (e.renumber f)
  /-- It names the new line, and the new number of the line that is not there. -/
  | undefinedTarget (line target : LineNumber) :
      Error.Renumbered calls (.undefinedTarget line target) (.undefinedTarget (f line) (f target))

/-- How the ending of a run changes when the lines have other numbers. -/
inductive Ending.Renumbered (calls : List Call) : Ending → Ending → Prop
  | finished : Ending.Renumbered calls .finished .finished
  | failed {e e' : Error} (renumbered : e.Renumbered f calls e') :
      Ending.Renumbered calls (.failed e) (.failed e')
  | unfinished (line : LineNumber) :
      Ending.Renumbered calls (.unfinished line) (.unfinished (f line))

end

theorem Event.blind_renumber (f : LineNumber → LineNumber) (event : Event) :
    (event.renumber f).blind = event.blind := by
  cases event with
  | executing => rfl
  | executed line statement transfer vars => cases transfer <;> rfl

/-! ## Worlds that are the same but for the numbers -/

variable {σ τ : Type} {a : Device (StateM (Host σ))} {b : Device (StateM (Host τ))}
  {f : LineNumber → LineNumber}

/-- A run finds the same in two worlds, and has made the same calls, but for the numbers of lines. -/
structure World.Renumbered (f : LineNumber → LineNumber) (a : Device (StateM (Host σ)))
    (b : Device (StateM (Host τ))) (w : World σ) (v : World τ) : Prop where
  memory : w.memory.Agree v.memory
  calls : v.journal.map Call.plain = w.journal.map fun call => (call.renumber f).plain
  host : a.Blind w.host b v.host

namespace World.Renumbered

variable {w : World σ} {v : World τ}

theorem record (same : World.Renumbered f a b w v) (call : Call) {h : Host σ} {k : Host τ}
    (host : a.Blind h b k) :
    World.Renumbered f a b (w.record call h) (v.record (call.renumber f) k) :=
  ⟨same.memory, by simp [same.calls], host⟩

theorem shown (same : World.Renumbered f a b w v) (event : Event) :
    World.Renumbered f a b (w.shown a event) (v.shown b (event.renumber f)) where
  memory := ⟨by simp [same.memory.vars], by simp [same.memory.transfer]⟩
  calls := by simp [Call.plain, Call.renumber, same.calls]
  host := by simpa using same.host.trace (event.blind_renumber f)

theorem heard (same : World.Renumbered f a b w v) : World.Renumbered f a b w.heard v.heard :=
  ⟨same.memory, same.calls, (Device.Blind.talks.poll same.host).2⟩

/-- What is noted in the logs is nothing that a run finds. -/
theorem note (same : World.Renumbered f a b w v) (r s : Record) :
    World.Renumbered f a b (w.note r) (v.note s) :=
  ⟨⟨same.memory.vars, same.memory.transfer⟩, same.calls, same.host⟩

theorem fetched (same : World.Renumbered f a b w v) (line : LineNumber) (statement : Statement) :
    World.Renumbered f a b (w.fetched a line statement)
      (v.fetched b (f line) (statement.renumber f)) :=
  (same.heard.note _ _).shown (.executing line statement)

theorem emptied (same : World.Renumbered f a b w v) : World.Renumbered f a b w.emptied v.emptied :=
  ⟨⟨same.memory.vars, rfl⟩, same.calls, same.host⟩

/-- What statements do keeps two worlds the same but for the numbers. -/
theorem talk : TalkLockstep a b (World.Renumbered f a b) := by
  refine .of_talks Device.Blind.talks (·.memory) (·.host)
    (fun same agree => ⟨agree, same.calls, same.host⟩) ?_
  intro w v h k call talk same host
  cases call with
  | printed | asked => exact same.record _ host
  | stepped | traced => cases talk

end World.Renumbered

/-! ## One line -/

namespace Error

theorem renumber_of_unplaced {e : Error} (unplaced : e.line = none) : e.renumber f = e := by
  rw [renumber, unplaced]
  exact congrArg (Error.mk e.code · e.column e.detail) unplaced.symm

theorem orAtLine_renumber {e : Error} (unplaced : e.line = none) (line : LineNumber) :
    e.orAtLine (f line) = (e.orAtLine line).renumber f := by
  simp only [orAtLine, unplaced]
  rfl

end Error

namespace Program

variable {program other : Program} {mode : Mode} {line : LineNumber} {w after start : World σ}
  {v start' : World τ}

/-- A line that has gone well leads to the new number of the line that it led to. -/
theorem ok_of_renumbered {calls : List Call} {next : Option LineNumber}
    {result : Except Error (Option LineNumber)}
    (renumbered : (ending (.ok next)).Renumbered f calls (ending result)) :
    result = .ok (next.map f) := by
  cases next <;> rcases result with _ | _ | _ <;> cases renumbered <;> rfl

variable (moved : program.Renumbers f other)

include moved

/-- A renumbered line leads to the new number of the line that it led to, or fails as it failed. -/
theorem follow?_renumbered (stored : program.contains line = true) {t : Transfer} {calls : List Call}
    (carried : program.CarriedOut a line w (.ok t) after) :
    (ending (program.follow? line t)).Renumbered f calls
      (ending (other.follow? (f line) (t.renumber f))) := by
  have mentioned : ∀ target, t = .jump target → program.Mentions target := by
    rintro target rfl
    exact carried.mentions
  cases follows : program.follow? line t with
  | ok next =>
    rw [moved.follow?_ok mentioned stored follows]
    cases next with
    | none => exact .finished
    | some next => exact .unfinished next
  | error e =>
    obtain ⟨target, rfl, fails⟩ := moved.follow?_error mentioned follows
    rw [fails]
    exact .failed (.undefinedTarget line target)

/-- A line that is not carried out fails with the same error at the new line. -/
theorem CarriedOut.renumbered {e : Error} (stored : program.contains line = true)
    (carried : program.CarriedOut a line w (.error e) after) :
    e.Renumbered f after.journal (e.renumber f) := by
  refine .moved fun undefined => ?_
  rcases carried.whence with rfl | absent | ⟨raised, known, rfl⟩ | answered
  · cases undefined
  · obtain ⟨s, found, _⟩ := moved.statement line stored
    rw [found] at absent
    cases absent
  · rw [code_orAtLine] at undefined
    exact absurd undefined known.code_ne_undefinedLine
  · exact answered

variable (unplaced : a.Unplaced)

include unplaced

/-- The statement of a renumbered line does the same, and comes to the same transfer or error, but
for the numbers. -/
theorem outcome_carryOut_renumbered (stored : program.contains line = true)
    (same : World.Renumbered f a b w v) {result : Except Error Transfer}
    (done : (program.carryOut a.journaled line).outcome w = (result, after)) :
    ∃ behind, (other.carryOut b.journaled (f line)).outcome v =
        ((result.map (Transfer.renumber f)).mapError (Error.renumber f), behind) ∧
      World.Renumbered f a b after behind := by
  obtain ⟨s, found, found'⟩ := moved.statement line stored
  have polled := (Device.Blind.talks.poll same.host).1
  cases interrupted : w.host.interrupted with
  | true =>
    rw [carryOut, Exec.outcome_bind, outcome_fetch, if_pos interrupted] at done
    cases done
    refine ⟨v.heard, ?_, same.heard⟩
    rw [carryOut, Exec.outcome_bind, outcome_fetch, if_pos (polled.trans interrupted)]
    rfl
  | false =>
    rw [outcome_carryOut_of_clear interrupted found] at done
    rw [outcome_carryOut_of_clear (polled.trans interrupted) found', Statement.perform_renumber,
      Exec.outcome_map]
    -- The statement itself comes to the same on both devices.
    obtain ⟨one, behind⟩ := World.Renumbered.talk.congruence.perform s _ _ (same.fetched line s)
    cases carried : (s.perform a.journaled).outcome (w.fetched a line s) with
    | mk result between =>
      rw [carried] at done one behind
      rw [one]
      cases result with
      | error e =>
        cases done
        obtain ⟨made, performed⟩ := Statement.performed carried
        have nowhere := performed.line_eq_none unplaced
        refine ⟨_, ?_, behind⟩
        simp only [Except.map, Except.mapError, Error.orAtLine_renumber nowhere]
      | ok t =>
        cases done
        refine ⟨_, rfl, ?_⟩
        rw [behind.memory.vars]
        exact behind.emptied.shown (.executed line s t between.memory.vars)

/-- One line of a renumbered program. -/
theorem RanLine.renumbered {result : Except Error (Option LineNumber)}
    (stored : program.contains line = true) (same : World.Renumbered f a b w v)
    (ran : program.RanLine a mode line w result after) :
    ∃ result' behind, (other.runLine b.journaled mode (f line)).outcome v = (result', behind) ∧
      (ending result).Renumbered f after.journal (ending result') ∧
      World.Renumbered f a b after behind := by
  cases ran with
  | failed carried =>
    obtain ⟨behind, done, same⟩ := outcome_carryOut_renumbered moved unplaced stored same carried
    have renumbered := (carriedOut carried).renumbered moved stored
    refine ⟨.error _, behind, ?_, .failed renumbered, same⟩
    rw [runLine_eq, Exec.outcome_bind, done]
    rfl
  | followed unasked carried =>
    subst unasked
    obtain ⟨behind, done, same⟩ := outcome_carryOut_renumbered moved unplaced stored same carried
    refine ⟨_, behind, ?_, follow?_renumbered moved stored (carriedOut carried), same⟩
    rw [outcome_runLine_run, done]
    rfl
  | @granted t after asked carried answer =>
    subst asked
    obtain ⟨behind, done, same⟩ := outcome_carryOut_renumbered moved unplaced stored same carried
    obtain ⟨one, still⟩ := same.host.step line (f line)
    refine ⟨_, _, ?_, follow?_renumbered moved stored (carriedOut carried),
      same.record (.stepped line (.ok true)) still⟩
    simp only [outcome_runLine_step, done, Except.map, Except.mapError, one, answer]
    rfl
  | @refused t after asked carried answer =>
    subst asked
    obtain ⟨behind, done, same⟩ := outcome_carryOut_renumbered moved unplaced stored same carried
    obtain ⟨one, still⟩ := same.host.step line (f line)
    refine ⟨.error (.breakAt (f line)), _, ?_, .failed (.moved nofun),
      same.record (.stepped line (.ok false)) still⟩
    simp only [outcome_runLine_step, done, Except.map, Except.mapError, one, answer]
    rfl
  | @lost t after e asked carried answer =>
    subst asked
    obtain ⟨behind, done, same⟩ := outcome_carryOut_renumbered moved unplaced stored same carried
    obtain ⟨one, still⟩ := same.host.step line (f line)
    have nowhere := Error.renumber_of_unplaced (f := f) (unplaced.step line _ e answer)
    refine ⟨.error (e.renumber f), _, ?_, .failed (.moved fun _ => ?_),
      same.record (.stepped line (.error e)) still⟩
    · simp only [outcome_runLine_step, done, Except.map, Except.mapError, one, answer, nowhere]
      rfl
    · exact ⟨_, List.mem_cons_self, e, rfl, .inl rfl⟩

/-! ## Runs -/

variable {count bound : Nat} {next : Option LineNumber}

/-- The run of a renumbered program comes to the new numbers of the lines to which the run came. -/
theorem Arrives.renumbered (fresh : start.journal = []) (same : World.Renumbered f a b start start')
    (arrives : program.Arrives a mode start count next w) :
    ∃ v, other.Arrives b mode start' count (next.map f) v ∧ World.Renumbered f a b w v := by
  induction arrives with
  | start => exact ⟨start', moved.first? ▸ .start, same⟩
  | next arrives done ih =>
    obtain ⟨v, arrives', same⟩ := ih
    have stored := (arrives.path fresh).contains
    obtain ⟨_, behind, done', renumbered, same⟩ :=
      (ranLine done).renumbered moved unplaced stored same
    cases ok_of_renumbered renumbered
    exact ⟨behind, arrives'.next done', same⟩

/-- The run of a renumbered program. -/
theorem Ran.renumbered {result : Except Error (Option LineNumber)}
    (fresh : start.journal = [])
    (same : World.Renumbered f a b start start')
    (ran : program.Ran a mode start bound result after) :
    ∃ result' behind,
      (other.runLines b.journaled mode bound other.first?).outcome start' = (result', behind) ∧
      (ending result).Renumbered f after.journal (ending result') ∧
      World.Renumbered f a b after behind := by
  cases ran with
  | finished within arrives =>
    obtain ⟨v, arrives, same⟩ := arrives.renumbered moved unplaced fresh same
    exact ⟨.ok none, v, arrives.outcome_finished within, .finished, same⟩
  | unfinished arrives =>
    obtain ⟨v, arrives, same⟩ := arrives.renumbered moved unplaced fresh same
    exact ⟨_, v, arrives.outcome_add 0, .unfinished _, same⟩
  | failed within arrives failed =>
    have stored := (arrives.path fresh).contains
    obtain ⟨v, arrives, same⟩ := arrives.renumbered moved unplaced fresh same
    obtain ⟨result, behind, done, renumbered, same⟩ :=
      (ranLine failed).renumbered moved unplaced stored same
    cases result with
    | ok next => rcases next with _ | _ <;> cases renumbered
    | error e => exact ⟨_, behind, arrives.outcome_failed done within, renumbered, same⟩

end Program

/-! ## Reports of renumbered programs -/

theorem Error.Renumbered.mono {e e' : Error} {calls more : List Call} (subset : calls ⊆ more)
    (renumbered : e.Renumbered f calls e') : e.Renumbered f more e' := by
  cases renumbered with
  | moved own =>
    refine .moved fun undefined => ?_
    obtain ⟨call, mem, answered⟩ := own undefined
    exact ⟨call, subset mem, answered⟩
  | undefinedTarget line target => exact .undefinedTarget line target

theorem Ending.Renumbered.mono {ending ending' : Ending} {calls more : List Call}
    (subset : calls ⊆ more) (renumbered : ending.Renumbered f calls ending') :
    ending.Renumbered f more ending' := by
  cases renumbered with
  | finished => exact .finished
  | failed renumbered => exact .failed (renumbered.mono subset)
  | unfinished line => exact .unfinished line

/-- Two reports tell the same, but for the numbers of lines. -/
structure Report.Renumbered (f : LineNumber → LineNumber) (first : Report σ) (second : Report τ) :
    Prop where
  /-- Both runs are finished, or both have failed, or both are at their bounds. -/
  ending : first.ending.Renumbered f first.calls second.ending
  /-- The same calls have been made, and answered in the same way. -/
  calls : second.calls.map Call.plain = first.calls.map fun call => (call.renumber f).plain
  /-- In particular the same has been printed and read. -/
  talk : second.calls.filter Call.isTalk = first.calls.filter Call.isTalk
  /-- The statements of the same lines have been begun, and carried out. -/
  begun : begunIn (eventsOf second.calls) = (begunIn (eventsOf first.calls)).map f
  executed : executedIn (eventsOf second.calls) = (executedIn (eventsOf first.calls)).map f
  vars : second.session.memory.vars = first.session.memory.vars

/-- Calls that are the same but for the numbers tell the same, if the answers to what is shown have
no part in it, and changed numbers change it by `g`. -/
theorem filterMap_of_renumbered {α β : Type} {tell : Call → Option α} {tell' : Call → Option β}
    {g : α → β} {first second : List Call}
    (plain : ∀ call, tell' call.plain = tell' call)
    (moved : ∀ call : Call, tell' (call.renumber f) = (tell call).map g)
    (calls : second.map Call.plain = first.map fun call => (call.renumber f).plain) :
    second.filterMap tell' = (first.filterMap tell).map g := by
  calc second.filterMap tell' = (second.map Call.plain).filterMap tell' := by
        simp only [List.filterMap_map, Function.comp_def, plain]
    _ = (first.map fun call => (call.renumber f).plain).filterMap tell' := by rw [calls]
    _ = (first.filterMap tell).map g := by
        simp only [List.filterMap_map, Function.comp_def, plain, moved, List.map_filterMap]

theorem eventsOf_renumbered {first second : List Call}
    (calls : second.map Call.plain = first.map fun call => (call.renumber f).plain) :
    eventsOf second = (eventsOf first).map (Event.renumber f) := by
  refine filterMap_of_renumbered (fun call => ?_) (fun call => ?_) calls <;> cases call <;> rfl

theorem begunIn_renumbered (events : List Event) :
    begunIn (events.map (Event.renumber f)) = (begunIn events).map f := by
  rw [begunIn, List.filterMap_map, begunIn, List.map_filterMap]
  congr 1
  funext event
  cases event <;> rfl

theorem executedIn_renumbered (events : List Event) :
    executedIn (events.map (Event.renumber f)) = (executedIn events).map f := by
  rw [executedIn, List.filterMap_map, executedIn, List.map_filterMap]
  congr 1
  funext event
  cases event <;> rfl

theorem talk_renumbered {first second : List Call}
    (calls : second.map Call.plain = first.map fun call => (call.renumber f).plain) :
    second.filter Call.isTalk = first.filter Call.isTalk := by
  rw [← List.filterMap_eq_filter]
  refine (filterMap_of_renumbered (g := id) (fun call => ?_) (fun call => ?_) calls).trans
    (List.map_id _) <;> cases call <;> rfl

namespace Session

/-- Renumbering a program does not change what it does. On a device that makes nothing of the lines
and statements that it is shown, and whose errors name no line, the renumbered program makes the
same calls, carries out the same lines, leaves the same variables, and ends in the same way: only
the numbers of the lines are others. -/
theorem renumbered_report {left right : Session} (moved : left.program.Renumbers f right.program)
    {r : σ} {s : τ} (blind : a.Blind ⟨r, false⟩ b ⟨s, false⟩) (unplaced : a.Unplaced) (mode : Mode)
    (bound : Nat) (i j : Bool) :
    (left.report a mode bound ⟨r, i⟩).Renumbered f (right.report b mode bound ⟨s, j⟩) := by
  have same : World.Renumbered f a b (left.started mode ⟨r, i⟩) (right.started mode ⟨s, j⟩) :=
    ⟨⟨rfl, rfl⟩, rfl, blind⟩
  obtain ⟨result, after, tells, ran⟩ := left.ran_report a mode bound ⟨r, i⟩
  obtain ⟨result', behind, done, renumbered, same⟩ := ran.renumbered moved unplaced rfl same
  have tells' := tells_report done
  have calls : (right.report b mode bound ⟨s, j⟩).calls.map Call.plain =
      (left.report a mode bound ⟨r, i⟩).calls.map fun call => (call.renumber f).plain := by
    rw [tells.calls, tells'.calls, List.map_reverse, List.map_reverse, same.calls]
  exact {
    ending := by
      rw [tells.ending, tells'.ending, tells.calls]
      exact renumbered.mono fun call => List.mem_reverse.2
    calls := calls
    talk := talk_renumbered calls
    begun := by rw [eventsOf_renumbered calls, begunIn_renumbered]
    executed := by rw [eventsOf_renumbered calls, executedIn_renumbered]
    vars := by rw [tells.vars, tells'.vars, same.memory.vars] }

/-- A program that jumps forth and back, and at last to a line that is not stored. -/
theorem renumbered_report_jump :
    let left := ((((((Session.new .warning).enter "10 GOTO 30").2.enter "20 GOTO 25").2.enter
      "30 PRINT 1").2).enter "40 GOTO 20").2
    let right := ((((((Session.new .warning).enter "100 GOTO 900").2.enter "400 GOTO 625").2.enter
      "900 PRINT 1").2).enter "1600 GOTO 400").2
    let f : LineNumber → LineNumber := fun n => n * n
    let dev : Device (StateM (Host Unit)) :=
      ⟨fun _ => pure (.ok ()), fun _ => pure (.ok ""), fun _ => pure (.ok true),
        fun _ => pure (.ok ())⟩
    left.program.Renumbers f right.program ∧ dev.Blind ⟨(), false⟩ dev ⟨(), false⟩ ∧
      dev.Unplaced ∧
      (right.report dev .step 9 ⟨(), true⟩).ending = .failed (.undefinedTarget 400 625) ∧
      (left.report dev .step 9 ⟨(), false⟩).Renumbered f (right.report dev .step 9 ⟨(), true⟩) := by
  intro left right f dev
  have reachable : left.Reachable := .enter _ (.enter _ (.enter _ (.enter _ (.new _))))
  have typed : right.program = left.program.renumber f := by decide +kernel
  have increasing : StrictMono f := fun _ _ lt => Nat.mul_self_lt_mul_self lt
  have moved : left.program.Renumbers f right.program := by
    rw [typed]
    exact Program.renumbers_renumber (increasing.strictMonoOn _) reachable.readable
  have blind : dev.Blind ⟨(), false⟩ dev ⟨(), false⟩ := .refl (fun _ _ => rfl) (fun _ _ _ => rfl) _
  have unplaced : dev.Unplaced := ⟨nofun, nofun, nofun⟩
  exact ⟨moved, blind, unplaced, by decide +kernel,
    renumbered_report moved blind unplaced .step 9 false true⟩

end Session

end LineBasic
