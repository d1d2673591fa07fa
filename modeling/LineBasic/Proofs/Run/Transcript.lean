import LineBasic.Proofs.Run.Parallel
import LineBasic.Proofs.Run.Report
import LineBasic.Proofs.Statement.Talk

/-!
# Transcripts of runs

A run carries out one statement after the other, and all its calls, but for the question whether to
go on, belong to one of these executions. So what has been printed and what has been asked can be
read off from the executions: each `PRINT` that has succeeded has printed one text, and each `INPUT`
has asked once.

Results:
1. `Execution`, `Program.Transcript`: executions, and how they make up a run.
2. `Program.transcribed_carryOut`, `Program.transcribed_ran`: one line, and whole runs.
3. `Execution.Sound.talks`, `Transcript.map_filter_calls`: what has been printed and asked.
4. `Session.transcript_report`: the calls of a run, execution by execution.
-/

namespace LineBasic

/-! ## 1. Executions -/

/-- A statement that a run carries out: the variables before, the call that it makes, how it comes
out, and the variables behind it. -/
structure Execution where
  line : LineNumber
  statement : Statement
  before : Variables
  made : Option Call
  result : Except Error Transfer
  after : Variables

namespace Call

/-- A text has been printed. -/
def isOutput : Call → Bool
  | printed _ (.ok ()) => true
  | printed _ (.error _) | asked .. | stepped .. | traced .. => false

/-- A question has been asked, whether or not it has been answered. -/
def isQuestion : Call → Bool
  | asked .. => true
  | printed .. | stepped .. | traced .. => false

end Call

namespace Execution

/-- What is seen of an execution: the statement is shown, speaks, and is shown again if it has
succeeded. -/
def calls (x : Execution) : List Call :=
  .traced (.executing x.line x.statement) (.ok ()) ::
    (x.made.toList ++
      match x.result with
      | .ok t => [.traced (.executed x.line x.statement t x.after) (.ok ())]
      | .error _ => [])

/-- A `PRINT` that has succeeded. -/
def hasPrinted (x : Execution) : Bool :=
  match x.statement, x.result with
  | .print .., .ok _ => true
  | _, _ => false

/-- An `INPUT`, whatever has come of it. -/
def hasAsked (x : Execution) : Bool :=
  match x.statement with
  | .input _ => true
  | _ => false

/-- It carries out the statement of its line. -/
structure Sound (program : Program) (x : Execution) : Prop where
  found : program.statement x.line = .ok x.statement
  uttered : x.statement.Utters x.before x.made x.result x.after

variable {program : Program} {x : Execution}

/-- A `PRINT` that has succeeded has printed once, and nothing else has printed; an `INPUT` has asked
once, and nothing else has asked. -/
theorem Sound.talks (sound : x.Sound program) :
    (x.calls.filter Call.isOutput).map some = (if x.hasPrinted then [x.made] else []) ∧
      (x.calls.filter Call.isQuestion).map some = (if x.hasAsked then [x.made] else []) := by
  obtain ⟨line, statement, before, made, result, after⟩ := x
  have uttered : statement.Utters before made result after := sound.uttered
  cases uttered with
  | printed evaluated answer => rcases answer with e | ⟨⟨⟩⟩ <;> exact ⟨rfl, rfl⟩
  | unprinted | answered | misread | unanswered => exact ⟨rfl, rfl⟩
  | silent quiet =>
    cases statement with
    | print | input => cases quiet
    | _ => cases result <;> exact ⟨rfl, rfl⟩

/-- A `PRINT` of which a value fails makes no call. -/
theorem Sound.made_of_broken {literal : Option String} {values : List Expr} {e : Error}
    {between : Variables} (sound : x.Sound program) (isPrint : x.statement = .print literal values)
    (broken : Expr.Broken values x.before e between) : x.made = none := by
  obtain ⟨line, statement, before, made, result, after⟩ := x
  cases isPrint
  have uttered : (Statement.print literal values).Utters before made result after := sound.uttered
  cases uttered with
  | printed evaluated => exact absurd evaluated broken.not_evaluated
  | unprinted => rfl
  | silent quiet => cases quiet

end Execution

/-- What has been seen of a run, and the variables behind it, as its executions make them up, each
on the variables that the one before it has left behind. -/
inductive Program.Transcript (program : Program) :
    List Execution → List Call → Variables → Prop
  | nil : Transcript program [] [] .empty
  | snoc {executions : List Execution} {calls : List Call} {x : Execution}
      (earlier : Transcript program executions calls x.before) (sound : x.Sound program) :
      Transcript program (executions ++ [x]) (calls ++ x.calls) x.after

namespace Program.Transcript

variable {program : Program} {executions : List Execution} {calls : List Call} {vars : Variables}

theorem sound (transcript : program.Transcript executions calls vars) :
    ∀ x ∈ executions, x.Sound program := by
  induction transcript with
  | nil => exact fun x mem => absurd mem List.not_mem_nil
  | snoc _ last ih =>
    intro x mem
    rcases List.mem_append.1 mem with mem | mem
    · exact ih x mem
    · exact List.mem_singleton.1 mem ▸ last

theorem calls_eq (transcript : program.Transcript executions calls vars) :
    calls = executions.flatMap Execution.calls := by
  induction transcript with
  | nil => rfl
  | snoc _ _ ih => rw [ih, List.flatMap_append, List.flatMap_singleton]

/-- Calls that each execution makes exactly when it is of some kind are those of the executions of
this kind. -/
theorem map_filter_calls {kind : Call → Bool} {of : Execution → Bool}
    (transcript : program.Transcript executions calls vars)
    (one : ∀ x ∈ executions, (x.calls.filter kind).map some = if of x then [x.made] else []) :
    (executions.filter of).map Execution.made = (calls.filter kind).map some := by
  rw [transcript.calls_eq]
  clear transcript
  induction executions with
  | nil => rfl
  | cons x executions ih =>
    obtain ⟨first, others⟩ := List.forall_mem_cons.1 one
    rw [List.flatMap_cons, List.filter_append, List.map_append, first, ← ih others,
      List.filter_cons]
    cases of x <;> rfl

end Program.Transcript

/-! ## 2. Transcripts of worlds -/

namespace World

variable {σ : Type}

/-- What has been seen so far. -/
def seen (w : World σ) : List Call := seenIn w.journal.reverse

variable {w : World σ} {dev : Device (StateM (Host σ))}

@[simp] theorem seen_shown (event : Event) :
    (w.shown dev event).seen = w.seen ++ [.traced event (.ok ())] := by
  simp [seen, seenIn, Call.seen?]

@[simp] theorem seen_fetched (line : LineNumber) (statement : Statement) :
    (w.fetched dev line statement).seen =
      w.seen ++ [.traced (.executing line statement) (.ok ())] :=
  seen_shown _

@[simp] theorem vars_fetched (line : LineNumber) (statement : Statement) :
    (w.fetched dev line statement).memory.vars = w.memory.vars :=
  vars_shown dev _ _

@[simp] theorem seen_emptied : w.emptied.seen = w.seen := rfl

@[simp] theorem vars_emptied : w.emptied.memory.vars = w.memory.vars := rfl

@[simp] theorem seen_stepped (line : LineNumber) (answer : Except Error Bool) (host : Host σ) :
    (w.record (.stepped line answer) host).seen = w.seen := by
  simp [seen, seenIn, Call.seen?]

/-- The executions of a run up to a world account for all that has been seen. -/
def Transcribed (program : Program) (w : World σ) : Prop :=
  ∃ executions, program.Transcript executions w.seen w.memory.vars

end World

namespace Statement.Utters

variable {statement : Statement} {vars after : Variables} {made : Option Call}
  {result : Except Error Transfer}

/-- What is uttered is seen as it is. -/
theorem seen (uttered : statement.Utters vars made result after) :
    seenIn made.toList = made.toList := by
  cases uttered <;> rfl

end Statement.Utters

namespace Program

variable {σ : Type} {program : Program} {dev : Device (StateM (Host σ))} {mode : Mode}
  {line : LineNumber} {w after start : World σ}

/-- One more execution accounts for what is seen when the statement of a line is carried out; where
it is not carried out, nothing is seen. -/
theorem transcribed_carryOut {result : Except Error Transfer}
    (done : (program.carryOut dev.journaled line).outcome w = (result, after))
    (transcribed : w.Transcribed program) : after.Transcribed program := by
  obtain ⟨executions, transcript⟩ := transcribed
  by_cases begun : w.host.interrupted = false ∧ ∃ s, program.statement line = .ok s
  · obtain ⟨clear, statement, found⟩ := begun
    rw [outcome_carryOut_of_clear clear found] at done
    cases performed : (statement.perform dev.journaled).outcome (w.fetched dev line statement) with
    | mk result between =>
      obtain ⟨made, journal, uttered⟩ := Statement.utters performed
      rw [World.vars_fetched] at uttered
      have single : made.toList.reverse = made.toList := by cases made <;> rfl
      have seen : between.seen = (w.fetched dev line statement).seen ++ made.toList := by
        rw [World.seen, journal, List.reverse_append, seenIn, List.filterMap_append, ← seenIn,
          ← seenIn, single, uttered.seen, World.seen]
      let x : Execution := ⟨line, statement, w.memory.vars, made, result, between.memory.vars⟩
      have prolonged := transcript.snoc (x := x) ⟨found, uttered⟩
      rw [performed] at done
      refine ⟨executions ++ [x], ?_⟩
      cases result <;>
      · cases done
        simpa [x, Execution.calls, seen] using prolonged
  · cases carriedOut done with
    | interrupted | missing => exact ⟨executions, transcript⟩
    | failed clear found | done clear found => exact absurd ⟨clear, _, found⟩ begun

theorem transcribed_ranLine {result : Except Error (Option LineNumber)}
    (ran : program.RanLine dev mode line w result after) (transcribed : w.Transcribed program) :
    after.Transcribed program := by
  cases ran with
  | failed carried | followed _ carried => exact transcribed_carryOut carried transcribed
  | granted _ carried | refused _ carried | lost _ carried =>
    obtain ⟨executions, transcript⟩ := transcribed_carryOut carried transcribed
    exact ⟨executions, by rwa [World.seen_stepped]⟩

/-- The executions of a run account for all that has been seen of it. -/
theorem transcribed_ran {bound : Nat} {result : Except Error (Option LineNumber)}
    (ran : program.Ran dev mode start bound result after)
    (transcribed : start.Transcribed program) : after.Transcribed program :=
  ran.invariant transcribed_ranLine transcribed

end Program

/-! ## 3. Whole runs -/

/-- What is seen of calls of a kind are these calls, if they are seen as they are. -/
theorem filter_seenIn {kind : Call → Bool}
    (same : ∀ call : Call, call.seen?.filter kind = Option.guard kind call) (calls : List Call) :
    (seenIn calls).filter kind = calls.filter kind := by
  rw [seenIn, List.filter_filterMap, ← List.filterMap_eq_filter]
  exact congrArg (List.filterMap · calls) (funext same)

theorem filter_isOutput (calls : List Call) :
    (seenIn calls).filter Call.isOutput = calls.filter Call.isOutput := by
  refine filter_seenIn (fun call => ?_) calls
  cases call with
  | printed text answer => rcases answer with e | ⟨⟨⟩⟩ <;> rfl
  | _ => rfl

theorem filter_isQuestion (calls : List Call) :
    (seenIn calls).filter Call.isQuestion = calls.filter Call.isQuestion := by
  refine filter_seenIn (fun call => ?_) calls
  cases call <;> rfl

namespace Session

variable {σ : Type}

/-- The calls of a run, execution by execution. All that is seen of a run but the questions whether
to go on belongs to its executions, one after the other, and each of them begins with the variables
that the one before it has left behind. Each is of the statement of its line, and utters what the
statement has to. The texts that have been printed are those of the `PRINT` statements that have
succeeded, one each and in their order, and the questions that have been asked are those of the
`INPUT` statements; and a `PRINT` of which a value fails says nothing. -/
theorem transcript_report (session : Session) (dev : Device (StateM (Host σ))) (mode : Mode)
    (bound : Nat) (host : Host σ) :
    let report := session.report dev mode bound host
    ∃ executions : List Execution,
      session.program.Transcript executions (seenIn report.calls) report.session.memory.vars ∧
      seenIn report.calls = executions.flatMap Execution.calls ∧
      (∀ x ∈ executions, session.program.statement x.line = .ok x.statement ∧
        x.statement.Utters x.before x.made x.result x.after) ∧
      (executions.filter Execution.hasPrinted).map Execution.made =
        (report.calls.filter Call.isOutput).map some ∧
      (executions.filter Execution.hasAsked).map Execution.made =
        (report.calls.filter Call.isQuestion).map some ∧
      (∀ x ∈ executions, ∀ literal values e between, x.statement = .print literal values →
        Expr.Broken values x.before e between → x.made = none) := by
  intro report
  obtain ⟨result, w, tells, ran⟩ := session.ran_report dev mode bound host
  have started : (session.started mode host).Transcribed session.program := ⟨[], .nil⟩
  obtain ⟨executions, transcript⟩ := Program.transcribed_ran ran started
  rw [World.seen, ← tells.calls, ← tells.vars] at transcript
  refine ⟨executions, transcript, transcript.calls_eq,
    fun x mem => ⟨(transcript.sound x mem).found, (transcript.sound x mem).uttered⟩, ?_, ?_,
    fun x mem literal values e between => (transcript.sound x mem).made_of_broken⟩
  · rw [← filter_isOutput]
    exact transcript.map_filter_calls fun x mem => (transcript.sound x mem).talks.1
  · rw [← filter_isQuestion]
    exact transcript.map_filter_calls fun x mem => (transcript.sound x mem).talks.2

end Session

end LineBasic
