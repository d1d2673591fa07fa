import LineBasic.Proofs.Run.Congruence
import LineBasic.Proofs.Run.Failure

/-!
# Interrupting a run

An interrupt that is asked for while the device is called for a statement does not touch that
statement: it is carried out to its end, shown, and asked about. What the statement comes to by
itself then decides how the run ends (`Cut`), and only where it would have gone on to another line
does the interrupt end it, in front of that line, and is forgotten.

Where the host of a run stands is known from its calls alone, for they are all that changes it
(`RanLine.led`). So it can be told from two reports for which statement an interrupt was asked for.

Results:
1. `RanLine.led`: the host behind a line is that behind its calls.
2. `Arrives.outcome_interrupted`: where a run ends that has been interrupted during a line.
3. `Session.interrupted_report`: what an interrupted run shows.
-/

namespace LineBasic

variable {σ : Type}

/-! ## Hosts behind calls -/

namespace Device

/-- The host that a call leaves behind. -/
def behind (dev : Device (StateM (Host σ))) : Call → Host σ → Host σ
  | .printed text _, host => (dev.print text host).2
  | .asked prompt _, host => (dev.input prompt host).2
  | .stepped line _, host => (dev.step line host).2
  | .traced event _, host => (dev.trace event host).2

/-- The hosts that some calls leave behind, one after the other. -/
def hosts (dev : Device (StateM (Host σ))) : List Call → Host σ → List (Host σ)
  | [], _ => []
  | call :: calls, host => dev.behind call host :: dev.hosts calls (dev.behind call host)

/-- The host that all of some calls leave behind. -/
def behindAll (dev : Device (StateM (Host σ))) (calls : List Call) (host : Host σ) : Host σ :=
  calls.foldl (fun host call => dev.behind call host) host

/-- When an interrupt is asked for during some calls, and none takes it back, it is there behind all
of them. -/
theorem interrupted_behindAll {dev : Device (StateM (Host σ))} {calls : List Call} {host : Host σ}
    (raised : ∃ h ∈ dev.hosts calls host, h.interrupted = true)
    (kept : (dev.hosts calls host).IsChain fun h k => h.interrupted = true → k.interrupted = true) :
    (dev.behindAll calls host).interrupted = true := by
  induction calls generalizing host with
  | nil =>
    obtain ⟨_, ⟨⟩, _⟩ := raised
  | cons call calls ih =>
    obtain ⟨h, mem, set⟩ := raised
    rcases List.mem_cons.1 mem with rfl | mem
    · cases calls with
      | nil => exact set
      | cons next calls =>
        obtain ⟨first, rest⟩ := List.isChain_cons_cons.1 kept
        exact ih ⟨_, List.mem_cons_self, first set⟩ rest
    · exact ih ⟨h, mem, set⟩ kept.tail

end Device

/-- A world has come from another by calls of the device. -/
def World.Led (dev : Device (StateM (Host σ))) (w after : World σ) : Prop :=
  ∃ calls, after.journal = calls.reverse ++ w.journal ∧ after.host = dev.behindAll calls w.host

namespace World.Led

variable {dev : Device (StateM (Host σ))} {w v after : World σ}

theorem refl (w : World σ) : Led dev w w := ⟨[], rfl, rfl⟩

theorem trans (first : Led dev w v) (second : Led dev v after) : Led dev w after := by
  obtain ⟨calls, journal, host⟩ := first
  obtain ⟨more, journal', host'⟩ := second
  refine ⟨calls ++ more, by simp [journal, journal'], ?_⟩
  rw [host', host, Device.behindAll, Device.behindAll, Device.behindAll, List.foldl_append]

theorem record (w : World σ) (call : Call) : Led dev w (w.record call (dev.behind call w.host)) :=
  ⟨[call], rfl, rfl⟩

theorem shown (w : World σ) (event : Event) : Led dev w (w.shown dev event) :=
  ⟨[.traced event (dev.trace event w.host).1], by simp, by simp [Device.behindAll, Device.behind]⟩

end World.Led

/-- Whatever an action does to its host, it does by calls. -/
def Exec.Calling {α : Type} (dev : Device (StateM (Host σ)))
    (p : Exec (StateT (List Call) (StateM (Host σ))) α) : Prop :=
  ∀ w, World.Led dev w (p.outcome w).2

namespace Exec.Calling

variable {dev : Device (StateM (Host σ))} {α β : Type}
  {p : Exec (StateT (List Call) (StateM (Host σ))) α}

theorem bind {f : α → Exec (StateT (List Call) (StateM (Host σ))) β} (first : Calling dev p)
    (next : ∀ value, Calling dev (f value)) : Calling dev (p >>= f) := by
  intro w
  have led := first w
  rw [outcome_bind]
  generalize p.outcome w = left at led ⊢
  obtain ⟨_ | value, v⟩ := left
  · exact led
  · exact led.trans (next value v)

theorem atLine (line : LineNumber) (inner : Calling dev p) : Calling dev (Exec.atLine line p) := by
  intro w
  have led := inner w
  rw [outcome_atLine]
  generalize p.outcome w = left at led ⊢
  obtain ⟨_ | _, _⟩ := left <;> exact led

/-- Statements and what follows them change their host by calls only. -/
theorem congruence (dev : Device (StateM (Host σ))) :
    StatementCongruence dev.journaled dev.journaled fun p _ => Calling dev p where
  pure _ := .refl
  throw _ := .refl
  bind := .bind
  atLine line := .atLine line
  onMemory _ := fun w => ⟨[], rfl, rfl⟩
  print text := fun w => .record w (.printed text (dev.print text w.host).1)
  input prompt := fun w => .record w (.asked prompt (dev.input prompt w.host).1)
  watch event := fun w => by
    rw [Program.outcome_watch]
    exact .shown w event

end Exec.Calling

namespace Program

variable {program : Program} {dev : Device (StateM (Host σ))} {mode : Mode} {line : LineNumber}
  {statement : Statement} {w after start : World σ} {t : Transfer} {e : Error}

/-! ## What one line does to its host -/

theorem led_carryOut (program : Program) (dev : Device (StateM (Host σ))) (line : LineNumber)
    (w : World σ) : World.Led dev w.heard ((program.carryOut dev.journaled line).outcome w).2 := by
  rw [carryOut, Exec.outcome_bind, outcome_fetch]
  cases w.host.interrupted with
  | true => exact .refl _
  | false =>
    cases program.statement line with
    | error e => exact .refl _
    | ok statement =>
      have cong := Exec.Calling.congruence dev
      have executed : Exec.Calling dev (Exec.atLine line (statement.execute dev.journaled)) :=
        .atLine line (cong.execute statement)
      have behind := executed.bind fun _ => cong.settle line statement
      have shown : World.Led dev w.heard (w.fetched dev line statement) := .shown (w.heard.note _) _
      exact shown.trans (behind _)

/-- The host behind a line is that behind its calls. -/
theorem RanLine.led {result : Except Error (Option LineNumber)}
    (ran : program.RanLine dev mode line w result after) : World.Led dev w.heard after := by
  cases ran with
  | failed carried | followed _ carried =>
    have led := program.led_carryOut dev line w
    rwa [carried] at led
  | granted _ carried answer | refused _ carried answer | lost _ carried answer =>
    have led := program.led_carryOut dev line w
    rw [carried] at led
    exact led.trans (answer ▸ .record _ (.stepped line _))

/-- What has become of a statement that was carried out with its line. -/
theorem performed_of_ok (clear : w.host.interrupted = false)
    (found : program.statement line = .ok statement)
    (carried : (program.carryOut dev.journaled line).outcome w = (.ok t, after)) :
    ∃ v, (statement.perform dev.journaled).outcome (w.fetched dev line statement) = (.ok t, v) ∧
      after = v.emptied.shown dev (.executed line statement t v.memory.vars) := by
  rw [outcome_carryOut_of_clear clear found] at carried
  rcases known : (statement.perform dev.journaled).outcome (w.fetched dev line statement) with
    ⟨_ | _, v⟩
  · rw [known] at carried
    cases carried
  · rw [known] at carried
    cases carried
    exact ⟨v, rfl, rfl⟩

theorem performed_of_error (clear : w.host.interrupted = false)
    (found : program.statement line = .ok statement)
    (carried : (program.carryOut dev.journaled line).outcome w = (.error e, after)) :
    ∃ raised, e = raised.orAtLine line ∧
      (statement.perform dev.journaled).outcome (w.fetched dev line statement) =
        (.error raised, after) := by
  rw [outcome_carryOut_of_clear clear found] at carried
  rcases known : (statement.perform dev.journaled).outcome (w.fetched dev line statement) with
    ⟨raised | _, v⟩
  · rw [known] at carried
    cases carried
    exact ⟨raised, rfl, rfl⟩
  · rw [known] at carried
    cases carried

/-- The events of a statement that is carried out: that it is begun, and, if it does not fail, where
it has led and what the variables are then. -/
def eventsOfStatement (line : LineNumber) (statement : Statement) (vars : Variables) :
    Except Error Transfer → List Event
  | .ok t => [.executing line statement, .executed line statement t vars]
  | .error _ => [.executing line statement]

theorem carried_of_ok (clear : w.host.interrupted = false)
    (found : program.statement line = .ok statement)
    (carried : (program.carryOut dev.journaled line).outcome w = (.ok t, after)) :
    let performed := (statement.perform dev.journaled).outcome (w.fetched dev line statement)
    after.memory.vars = performed.2.memory.vars ∧
      after.events =
        w.events ++ eventsOfStatement line statement performed.2.memory.vars performed.1 := by
  obtain ⟨between, known, rfl⟩ := performed_of_ok clear found carried
  obtain ⟨made, performed⟩ := Statement.performed known
  rw [known]
  exact ⟨by simp [World.emptied], by simp [eventsOfStatement, performed.events]⟩

/-- A line leaves the variables as its statement does, and shows the events of the statement. -/
theorem RanLine.carried {result : Except Error (Option LineNumber)}
    (ran : program.RanLine dev mode line w result after) (clear : w.host.interrupted = false)
    (found : program.statement line = .ok statement) :
    let performed := (statement.perform dev.journaled).outcome (w.fetched dev line statement)
    after.memory.vars = performed.2.memory.vars ∧
      after.events =
        w.events ++ eventsOfStatement line statement performed.2.memory.vars performed.1 := by
  cases ran with
  | failed carried =>
    obtain ⟨raised, rfl, known⟩ := performed_of_error clear found carried
    obtain ⟨made, performed⟩ := Statement.performed known
    rw [known]
    exact ⟨rfl, by simp [eventsOfStatement, performed.events]⟩
  | followed _ carried => exact carried_of_ok clear found carried
  | granted _ carried | refused _ carried | lost _ carried =>
    rw [World.events_stepped]
    exact carried_of_ok clear found carried

/-! ## Where an interrupted run ends -/

variable {count bound : Nat}

/-- What a run comes to behind a line during which it has been interrupted. -/
def cutShort (result : Except Error (Option LineNumber)) (after : World σ) :
    Except Error (Option LineNumber) × World σ :=
  match result with
  | .ok (some next) => (.error (.breakAt next), after.heard)
  | result => (result, after)

@[simp] theorem journal_cutShort (result : Except Error (Option LineNumber)) (after : World σ) :
    (cutShort result after).2.journal = after.journal := by
  rcases result with _ | _ | _ <;> rfl

@[simp] theorem vars_cutShort (result : Except Error (Option LineNumber)) (after : World σ) :
    (cutShort result after).2.memory.vars = after.memory.vars := by
  rcases result with _ | _ | _ <;> rfl

/-- In front of a line, an interrupt ends the run. -/
theorem outcome_runLine_of_set (set : w.host.interrupted = true) :
    (program.runLine dev.journaled mode line).outcome w = (.error (.breakAt line), w.heard) := by
  rw [runLine_eq, Exec.outcome_bind, carryOut, Exec.outcome_bind, outcome_fetch, if_pos set]

/-- A run that has been interrupted during a line ends behind it, however high the bound. -/
theorem Arrives.outcome_interrupted {result : Except Error (Option LineNumber)}
    (arrives : program.Arrives dev mode start count (some line) w)
    (done : (program.runLine dev.journaled mode line).outcome w = (result, after))
    (set : after.host.interrupted = true) (beyond : count + 1 < bound) :
    (program.runLines dev.journaled mode bound program.first?).outcome start =
      cutShort result after := by
  rcases result with e | _ | next
  · exact arrives.outcome_failed done (Nat.lt_of_succ_lt beyond)
  · exact (arrives.next done).outcome_finished (Nat.le_of_lt beyond)
  · exact (arrives.next done).outcome_failed (outcome_runLine_of_set set) beyond

/-- How a run ends that has been interrupted while a statement was carried out, by what that
statement has come to. -/
inductive Cut (program : Program) (mode : Mode) (line : LineNumber) (report : Report σ) :
    Except Error Transfer → Prop
  /-- The statement failed: with its error. -/
  | failed {e : Error} (ending : report.ending = .failed (e.orAtLine line)) :
      Cut program mode line report (.error e)
  /-- The device was asked whether to go on, and refused: with a break at the line. -/
  | refused {t : Transfer} (asked : mode = .step)
      (answer : report.calls.getLast? = some (.stepped line (.ok false)))
      (ending : report.ending = .failed (.breakAt line)) : Cut program mode line report (.ok t)
  /-- The device was asked whether to go on, and failed: with the error of the device. -/
  | lost {t : Transfer} {e : Error} (asked : mode = .step)
      (answer : report.calls.getLast? = some (.stepped line (.error e)))
      (ending : report.ending = .failed e) : Cut program mode line report (.ok t)
  /-- The run was let go on, and the statement jumped to a line that is not stored. -/
  | astray {target : LineNumber}
      (granted : mode = .run ∨ report.calls.getLast? = some (.stepped line (.ok true)))
      (absent : program.contains target = false)
      (ending : report.ending = .failed (.undefinedTarget line target)) :
      Cut program mode line report (.ok (.jump target))
  /-- The run was let go on, and there was nowhere to go: it is at its end. -/
  | over {t : Transfer}
      (granted : mode = .run ∨ report.calls.getLast? = some (.stepped line (.ok true)))
      (leads : t = .halt ∨ t = .next ∧ ∀ n, program.contains n → n ≤ line)
      (ending : report.ending = .finished) : Cut program mode line report (.ok t)
  /-- The run was let go on: with a break at the line that was next, and the interrupt is over. -/
  | broken {t : Transfer} {next : LineNumber}
      (granted : mode = .run ∨ report.calls.getLast? = some (.stepped line (.ok true)))
      (leads : t = .next ∧ IsLeast {n | program.contains n ∧ line < n} next ∨
        t = .jump next ∧ program.contains next = true)
      (ending : report.ending = .failed (.breakAt next))
      (forgotten : report.host.interrupted = false) : Cut program mode line report (.ok t)

/-- When the run is let go on, where the statement has led decides. -/
theorem Cut.of_follow? {report : Report σ}
    (granted : mode = .run ∨ report.calls.getLast? = some (.stepped line (.ok true)))
    (tells : report.Tells (cutShort (program.follow? line t) after).1
      (cutShort (program.follow? line t) after).2) :
    program.Cut mode line report (.ok t) := by
  rcases follows : program.follow? line t with e | _ | next
  · rw [follows] at tells
    obtain ⟨target, rfl, absent, rfl⟩ := jump_of_follow? follows
    exact .astray granted absent tells.ending
  · rw [follows] at tells
    exact .over granted (follow?_eq_none_iff.1 follows) tells.ending
  · rw [follows] at tells
    exact .broken granted (cases_of_follow? follows) tells.ending (by rw [tells.host]; rfl)

theorem RanLine.cut {result : Except Error (Option LineNumber)} {report : Report σ}
    (ran : program.RanLine dev mode line w result after) (clear : w.host.interrupted = false)
    (found : program.statement line = .ok statement)
    (tells : report.Tells (cutShort result after).1 (cutShort result after).2) :
    program.Cut mode line report
      ((statement.perform dev.journaled).outcome (w.fetched dev line statement)).1 := by
  have last : report.calls.getLast? = after.journal.head? := by
    rw [tells.calls, journal_cutShort, List.getLast?_reverse]
  cases ran with
  | failed carried =>
    obtain ⟨raised, rfl, known⟩ := performed_of_error clear found carried
    rw [known]
    exact .failed tells.ending
  | followed unasked carried =>
    obtain ⟨v, known, _⟩ := performed_of_ok clear found carried
    rw [known]
    exact .of_follow? (.inl unasked) tells
  | granted _ carried =>
    obtain ⟨v, known, _⟩ := performed_of_ok clear found carried
    rw [known]
    exact .of_follow? (.inr last) tells
  | refused asked carried =>
    obtain ⟨v, known, _⟩ := performed_of_ok clear found carried
    rw [known]
    exact .refused asked last tells.ending
  | lost asked carried =>
    obtain ⟨v, known, _⟩ := performed_of_ok clear found carried
    rw [known]
    exact .lost asked last tells.ending

theorem CarriedOut.begun_of_ok (carried : program.CarriedOut dev line w (.ok t) after) :
    w.host.interrupted = false ∧ ∃ statement, program.statement line = .ok statement := by
  cases carried with
  | done clear found _ => exact ⟨clear, _, found⟩

/-- When an interrupt is asked for during a line, its statement has been begun. -/
theorem RanLine.begun {result : Except Error (Option LineNumber)}
    (ran : program.RanLine dev mode line w result after) (set : after.host.interrupted = true) :
    w.host.interrupted = false ∧ ∃ statement, program.statement line = .ok statement := by
  cases ran with
  | failed carried =>
    -- The interrupt would have been forgotten when the line was not begun.
    cases carriedOut carried with
    | interrupted | missing => cases set
    | failed clear found _ => exact ⟨clear, _, found⟩
  | followed _ carried | granted _ carried | refused _ carried | lost _ carried =>
    exact (carriedOut carried).begun_of_ok

theorem RanLine.begun_ok {result : Except Error (Option LineNumber)} {next : Option LineNumber}
    (ran : program.RanLine dev mode line w result after) (ok : result = .ok next) :
    begunIn after.events = begunIn w.events ++ [line] := by
  cases ran with
  | followed _ carried => exact (carriedOut carried).begun_ok
  | granted _ carried =>
    rw [World.events_stepped]
    exact (carriedOut carried).begun_ok
  | failed | refused | lost => cases ok

/-- A run that has come to a line has begun as many statements as it has taken lines. -/
theorem Arrives.length_begun {next : Option LineNumber} (fresh : start.journal = [])
    (arrives : program.Arrives dev mode start count next w) :
    (begunIn w.events).length = count := by
  induction arrives with
  | start =>
    rw [World.events, fresh]
    rfl
  | @next _ _ w after _ _ done ih =>
    have step : begunIn after.events = begunIn w.events ++ [_] := (ranLine done).begun_ok rfl
    rw [step, List.length_append, ih, List.length_singleton]

end Program

namespace Session

variable {session : Session} {dev : Device (StateM (Host σ))} {mode : Mode} {count : Nat}
  {host : Host σ}

/-- The calls that are made for the statement that a run begins behind some others. There are none
if the run does not come so far. -/
def callsDuring (session : Session) (dev : Device (StateM (Host σ))) (mode : Mode) (count : Nat)
    (host : Host σ) : List Call :=
  (session.report dev mode (count + 1) host).calls.drop
    (session.report dev mode count host).calls.length

/-- The hosts that these calls leave behind, one after the other. -/
def hostsDuring (session : Session) (dev : Device (StateM (Host σ))) (mode : Mode) (count : Nat)
    (host : Host σ) : List (Host σ) :=
  dev.hosts (session.callsDuring dev mode count host)
    { (session.report dev mode count host).host with interrupted := false }

/-- A run during whose calls for a statement an interrupt is asked for has come to the line of that
statement, and the interrupt is there behind the line. -/
theorem arrives_of_raised
    (raised : ∃ h ∈ session.hostsDuring dev mode count host, h.interrupted = true)
    (kept : (session.hostsDuring dev mode count host).IsChain
      fun h k => h.interrupted = true → k.interrupted = true) :
    ∃ line w result after,
      (session.report dev mode count host).Tells (.ok (some line)) w ∧
      session.program.Arrives dev mode (session.started mode host) count (some line) w ∧
      (session.program.runLine dev.journaled mode line).outcome w = (result, after) ∧
      after.host.interrupted = true := by
  obtain ⟨result, w, tells, ran⟩ := session.ran_report dev mode count host
  unfold hostsDuring callsDuring at raised kept
  cases ran with
  | finished within arrives =>
    have tells' := tells_report (arrives.outcome_finished (Nat.le_succ_of_le within))
    rw [tells.calls, tells'.calls, List.drop_length] at raised
    obtain ⟨_, ⟨⟩, _⟩ := raised
  | failed within arrives failed =>
    have tells' := tells_report (arrives.outcome_failed failed (Nat.lt_succ_of_lt within))
    rw [tells.calls, tells'.calls, List.drop_length] at raised
    obtain ⟨_, ⟨⟩, _⟩ := raised
  | @unfinished line _ arrives =>
    cases done : (session.program.runLine dev.journaled mode line).outcome w with
    | mk result after =>
      have tells' := tells_report (arrives.outcome_succ.trans done)
      obtain ⟨calls, journal, stands⟩ := (Program.ranLine done).led
      have during : (session.report dev mode (count + 1) host).calls.drop
          (session.report dev mode count host).calls.length = calls := by
        rw [tells.calls, tells'.calls, journal, List.reverse_append, List.reverse_reverse]
        exact List.drop_left
      rw [during, tells.host] at raised kept
      exact ⟨line, w, result, after, tells, arrives, done,
        stands ▸ Device.interrupted_behindAll raised kept⟩

/-- What an interrupted run shows. If an interrupt is asked for during a call that is made for a
statement, and no later call for that statement takes it back, then the statement is carried out to
its end, and it is the last: the run ends as that statement decides, with its calls, and with the
variables as they are behind it. An interrupt that was asked for before the run has no part in
it. -/
theorem interrupted_report (session : Session) (dev : Device (StateM (Host σ))) (mode : Mode)
    (host : Host σ) :
    (∀ bound i, session.report dev mode bound { host with interrupted := i } =
      session.report dev mode bound host) ∧
    ∀ count, (∃ h ∈ session.hostsDuring dev mode count host, h.interrupted = true) →
      ((session.hostsDuring dev mode count host).IsChain
        fun h k => h.interrupted = true → k.interrupted = true) →
      let before := session.report dev mode count host
      ∃ line statement w,
        session.program.Arrives dev mode (session.started mode host) count (some line) w ∧
        session.program.statement line = .ok statement ∧
        before.calls = w.journal.reverse ∧ (begunIn (eventsOf before.calls)).length = count ∧
        let performed := (statement.perform dev.journaled).outcome (w.fetched dev line statement)
        ∀ bound, count + 1 < bound →
          let report := session.report dev mode bound host
          session.program.Cut mode line report performed.1 ∧
          report.calls = before.calls ++ session.callsDuring dev mode count host ∧
          eventsOf report.calls = eventsOf before.calls ++
            Program.eventsOfStatement line statement performed.2.memory.vars performed.1 ∧
          report.session.memory.vars = performed.2.memory.vars := by
  refine ⟨fun bound i => rfl, fun count raised kept => ?_⟩
  obtain ⟨line, w, result, after, tells, arrives, done, set⟩ := arrives_of_raised raised kept
  obtain ⟨clear, statement, found⟩ := (Program.ranLine done).begun set
  obtain ⟨vars, events⟩ := (Program.ranLine done).carried clear found
  intro before
  have eventsBefore : eventsOf before.calls = w.events := congrArg eventsOf tells.calls
  refine ⟨line, statement, w, arrives, found, tells.calls, ?_, ?_⟩
  · rw [eventsBefore]
    exact arrives.length_begun rfl
  · intro performed bound beyond report
    have tells' : report.Tells (Program.cutShort result after).1 (Program.cutShort result after).2 :=
      tells_report (arrives.outcome_interrupted done set beyond)
    have calls : report.calls = after.journal.reverse := by
      rw [tells'.calls, Program.journal_cutShort]
    refine ⟨(Program.ranLine done).cut clear found tells', ?_, ?_, ?_⟩
    · have least : (session.report dev mode (count + 1) host).calls = after.journal.reverse :=
        (tells_report (arrives.outcome_succ.trans done)).calls
      obtain ⟨rest, grown⟩ : before.calls <+: (session.report dev mode (count + 1) host).calls :=
        calls_report_prefix (Nat.le_succ count) host
      rw [callsDuring, ← grown, List.drop_left, grown, least, calls]
    · rw [calls, eventsBefore]
      exact events
    · rw [tells'.vars, Program.vars_cutShort, vars]

/-- A run that is interrupted while it prints, in its second statement. -/
theorem interrupted_report_printing :
    let session := ((((Session.new .warning).enter "10 X = 1").2.enter "20 PRINT X").2.enter
      "30 GOTO 10").2
    let dev : Device (StateM (Host Unit)) :=
      ⟨fun _ host => (.ok (), { host with interrupted := true }), fun _ => pure (.ok ""),
        fun _ => pure (.ok true), fun _ => pure (.ok ())⟩
    let report := session.report dev .step 5 ⟨(), true⟩
    (session.callsDuring dev .step 1 ⟨(), true⟩).length = 4 ∧
      report.calls = (session.report dev .step 1 ⟨(), true⟩).calls ++
        session.callsDuring dev .step 1 ⟨(), true⟩ ∧
      report.ending = .failed (.breakAt 30) ∧ report.host.interrupted = false := by
  intro session dev report
  have raised : ∃ h ∈ session.hostsDuring dev .step 1 ⟨(), true⟩, h.interrupted = true := by
    decide +kernel
  have kept : (session.hostsDuring dev .step 1 ⟨(), true⟩).IsChain
      fun h k => h.interrupted = true → k.interrupted = true := by
    decide +kernel
  obtain ⟨_, _, _, _, _, _, _, shows⟩ :=
    (interrupted_report session dev .step ⟨(), true⟩).2 1 raised kept
  obtain ⟨_, calls, _⟩ := shows 5 (by decide)
  exact ⟨by decide +kernel, calls, by decide +kernel, by decide +kernel⟩

end Session

end LineBasic
