import LineBasic.Proofs.Program.Traversal
import LineBasic.Proofs.Run.Failure
import LineBasic.Proofs.Run.Stepping

/-!
# Programs that only go forward

A program all of whose jumps lead to higher numbers never comes back to a line. On its way through
such a program a run goes up, and there are only so many lines to come to; so the run is over after
no more lines than are stored, whatever the device does.

Results:
1. `Path.climbs`, `Course.climbs`: in such a program the way goes up.
2. `Ran.isOver_of_forward`: a run ends within as many lines as are stored.
3. `Session.forward_report`: programs that only go forward stop.
-/

namespace LineBasic

namespace Program

/-- Every jump leads to a higher number than that of its line, whether or not a line is stored
there. -/
def Forward (program : Program) : Prop :=
  ∀ line statement target, program.statement line = .ok statement →
    statement.target? = some target → line < target

theorem forward_iff {program : Program} :
    program.Forward ↔ ∀ entry ∈ program.toList,
      ∀ target ∈ entry.2.statement.bind Statement.target?, entry.1 < target := by
  simp only [Forward, statement_eq_ok_iff, Option.mem_def, Option.bind_eq_some_iff]
  constructor
  · rintro forward ⟨line, entry⟩ mem target ⟨s, attached, jumps⟩
    exact forward line s target ⟨entry, mem, attached⟩ jumps
  · rintro forward line s target ⟨entry, mem, attached⟩ jumps
    exact forward ⟨line, entry⟩ mem target ⟨s, attached, jumps⟩

instance (program : Program) : Decidable program.Forward := decidable_of_iff _ forward_iff.symm

variable {program : Program} {n m : LineNumber} {s : Statement} {t : Transfer}

/-! ## 1. Ways that go up -/

/-- Lines that are stored, each above those before it. -/
structure Climbs (program : Program) (lines : List LineNumber) : Prop where
  increasing : lines.Pairwise (· < ·)
  stored : ∀ n ∈ lines, program.contains n = true

namespace Climbs

variable {lines front : List LineNumber}

theorem length_le (climbs : program.Climbs lines) : lines.length ≤ program.size :=
  length_le_size climbs.increasing climbs.stored

theorem of_sublist (climbs : program.Climbs lines) (part : front.Sublist lines) :
    program.Climbs front :=
  ⟨climbs.increasing.sublist part, fun n mem => climbs.stored n (part.subset mem)⟩

/-- What is stored above the last line prolongs a way up. -/
theorem concat (climbs : program.Climbs (front ++ [n])) (above : n < m)
    (stored : program.contains m = true) : program.Climbs (front ++ [n] ++ [m]) := by
  refine ⟨List.pairwise_append.2 ⟨climbs.increasing, List.pairwise_singleton _ _, ?_⟩, ?_⟩
  · intro k mem _ last
    rw [List.mem_singleton.1 last]
    rcases List.mem_append.1 mem with before | last
    · have below := (List.pairwise_append.1 climbs.increasing).2.2 k before n List.mem_cons_self
      exact Nat.lt_trans below above
    · rwa [List.mem_singleton.1 last]
  · intro k mem
    rcases List.mem_append.1 mem with before | last
    · exact climbs.stored k before
    · rwa [List.mem_singleton.1 last]

end Climbs

/-- Where a line of such a program leads to another, that is stored above it. -/
theorem Forward.lt_of_follow? (forward : program.Forward) (found : program.statement n = .ok s)
    (leads : s.Leads t) (follows : program.follow? n t = .ok (some m)) : n < m := by
  rcases cases_of_follow? follows with ⟨_, least⟩ | ⟨rfl, _⟩
  · exact least.1.2
  · exact forward n s m found leads.target?_eq

variable {events : List Event} {next : Option LineNumber}

/-- The lines on a path, and the one to which it leads, go up. -/
theorem Path.climbs (forward : program.Forward) (path : program.Path events next) :
    program.Climbs (begunIn events ++ next.toList) := by
  induction path with
  | start =>
    cases first : program.first? with
    | none => exact ⟨.nil, nofun⟩
    | some n =>
      refine ⟨List.pairwise_singleton _ _, fun k mem => ?_⟩
      rw [List.mem_singleton.1 mem]
      exact (first?_eq_some_iff.1 first).1
  | @line events n s t vars next path found leads follows ih =>
    have lines : begunIn (events ++ [.executing n s, .executed n s t vars]) =
        begunIn events ++ [n] := by simp [begunIn]
    rw [lines]
    cases next with
    | none => rwa [Option.toList_none, List.append_nil]
    | some m =>
      exact ih.concat (forward.lt_of_follow? found leads follows) (contains_of_follow? follows)

/-- The lines of a run go up, also if it fails. -/
theorem Course.climbs {mode : Mode} {result : Except Error (Option LineNumber)}
    (forward : program.Forward) (course : program.Course mode events result) :
    program.Climbs (begunIn events) := by
  cases course with
  | whole path | before path =>
    exact (path.climbs forward).of_sublist (List.sublist_append_left _ _)
  | during path found | behind path found =>
    have climbs := path.climbs forward
    simpa [begunIn] using climbs

/-- On a path, what has been begun has been carried out. -/
theorem Path.executed_eq (path : program.Path events next) : executedIn events = begunIn events := by
  induction path with
  | start => rfl
  | line _ _ _ _ ih => simpa [executedIn, begunIn] using ih

/-- What has been carried out has been begun. -/
theorem Course.executed_sublist {mode : Mode} {result : Except Error (Option LineNumber)}
    (course : program.Course mode events result) :
    (executedIn events).Sublist (begunIn events) := by
  cases course with
  | whole path | before path => rw [path.executed_eq]
  | @during events n s _ path _ =>
    have executed : executedIn (events ++ [.executing n s]) = executedIn events := by
      simp [executedIn]
    have begun : begunIn (events ++ [.executing n s]) = begunIn events ++ [n] := by simp [begunIn]
    rw [executed, begun, path.executed_eq]
    exact List.sublist_append_left _ _
  | @behind events n s t vars _ path _ _ _ =>
    have same : executedIn (events ++ [.executing n s, .executed n s t vars]) =
        begunIn (events ++ [.executing n s, .executed n s t vars]) := by
      simpa [executedIn, begunIn] using path.executed_eq
    rw [same]

/-! ## 2. Runs that end -/

variable {σ : Type} {dev : Device (StateM (Host σ))} {mode : Mode} {bound : Nat}
  {start w after : World σ}

/-- A run ends within as many lines as are stored. -/
theorem Ran.isOver_of_forward {result : Except Error (Option LineNumber)}
    (forward : program.Forward) (fresh : start.journal = []) (enough : program.size ≤ bound)
    (ran : program.Ran dev mode start bound result after) : (ending result).isOver = true := by
  cases ran with
  | finished | failed => rfl
  | unfinished arrives =>
    -- The line to come would be one more than are stored.
    have path := arrives.path fresh
    have most := (path.climbs forward).length_le
    rw [← path.executed_eq, List.length_append, arrives.length_executed fresh] at most
    exact absurd (Nat.le_trans most enough) (Nat.not_succ_le_self bound)

end Program

/-! ## 3. The reports of such runs -/

namespace Session

/-- Programs that only go forward stop: in each mode and on every device a run is over when it has
taken as many lines as are stored, and a higher bound makes no difference. The lines that it begins
go up, and so do those that it carries out; it takes no line twice. -/
theorem forward_report {σ : Type} {session : Session} (forward : session.program.Forward)
    (dev : Device (StateM (Host σ))) (mode : Mode) (host : Host σ) :
    let report := fun bound => session.report dev mode bound host
    (report session.program.size).ending.isOver = true ∧
    (∀ bound, session.program.size ≤ bound → report bound = report session.program.size) ∧
    ∀ bound,
      let begun := begunIn (eventsOf (report bound).calls)
      let executed := executedIn (eventsOf (report bound).calls)
      begun.Pairwise (· < ·) ∧ begun.length ≤ session.program.size ∧
      executed.Pairwise (· < ·) ∧ executed.Nodup ∧ executed.length ≤ session.program.size := by
  intro report
  have ended : (report session.program.size).ending.isOver = true := by
    obtain ⟨result, w, tells, ran⟩ := session.ran_report dev mode session.program.size host
    rw [tells.ending]
    exact ran.isOver_of_forward forward rfl (Nat.le_refl _)
  refine ⟨ended, fun bound enough => report_of_le ended enough, fun bound => ?_⟩
  obtain ⟨result, w, tells, ran⟩ := session.ran_report dev mode bound host
  have course := ran.course rfl
  intro begun executed
  have upward : session.program.Climbs begun := by
    rw [show begun = begunIn w.events from congrArg (begunIn ∘ eventsOf) tells.calls]
    exact course.climbs forward
  have carried : session.program.Climbs executed := by
    rw [show executed = executedIn w.events from congrArg (executedIn ∘ eventsOf) tells.calls]
    exact (course.climbs forward).of_sublist course.executed_sublist
  exact ⟨upward.increasing, upward.length_le, carried.increasing,
    carried.increasing.imp Nat.ne_of_lt, carried.length_le⟩

/-- Jumps over a line, to the last, and from there to a number at which no line is stored. -/
theorem forward_report_missing :
    let session := (((((Session.new .warning).enter "10 GOTO 30").2.enter "20 GOTO 25").2.enter
      "30 X = 1").2.enter "40 IF X < 2 THEN 50").2
    let dev : Device (StateM (Host Unit)) :=
      ⟨fun _ => pure (.ok ()), fun _ => pure (.ok ""), fun _ => pure (.ok true),
        fun _ => pure (.ok ())⟩
    let report := session.report dev .step 9 ⟨(), false⟩
    session.program.Forward ∧ session.program.size = 4 ∧
      report = session.report dev .step session.program.size ⟨(), false⟩ ∧
      report.ending = .failed (.undefinedTarget 40 50) ∧
      executedIn (eventsOf report.calls) = [10, 30, 40] := by
  intro session dev report
  have forward : session.program.Forward := by decide +kernel
  obtain ⟨_, same, _⟩ := forward_report forward dev .step ⟨(), false⟩
  exact ⟨forward, by decide +kernel, same 9 (by decide +kernel), by decide +kernel,
    by decide +kernel⟩

end Session

end LineBasic
