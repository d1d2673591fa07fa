import LineBasic.Proofs.Device.Alike
import LineBasic.Proofs.Run.Lockstep

/-!
# Two runs side by side

On devices that answer alike, one line of a program comes to the same, whatever the mode of the run:
the same result, the same values of the variables, and the same calls, apart from the question
whether to go on. `Exec.Parallel` says so of any two actions; it is a relation that runs keep, so it
holds of a line as far as it asks no such question.

Results:
1. `World.Alike.lockstep`: alike worlds are kept by all that alike devices do.
2. `Program.parallel_carryOut`: lines side by side.
-/

namespace LineBasic

/-- What a call tells of the program: not that it was asked whether to go on, nor what the device
made of an event. -/
def Call.seen? : Call → Option Call
  | printed text answer => some (.printed text answer)
  | asked prompt answer => some (.asked prompt answer)
  | traced event _ => some (.traced event (.ok ()))
  | stepped .. => none

/-- What some calls tell of the program. -/
def seenIn (calls : List Call) : List Call := calls.filterMap Call.seen?

variable {σ τ : Type} {a : Device (StateM (Host σ))} {b : Device (StateM (Host τ))}

/-- Two worlds are alike: the program finds the same in them, and has been seen to do the same. -/
structure World.Alike (a : Device (StateM (Host σ))) (b : Device (StateM (Host τ))) (w : World σ)
    (v : World τ) : Prop where
  memory : w.memory.Agree v.memory
  seen : seenIn v.journal = seenIn w.journal
  host : a.Alike w.host b v.host

namespace World.Alike

variable {w : World σ} {v : World τ}

theorem setMemory (alike : World.Alike a b w v) {m n : Memory} (agree : m.Agree n) :
    World.Alike a b (w.setMemory m) (v.setMemory n) :=
  ⟨agree, alike.seen, alike.host⟩

theorem record (alike : World.Alike a b w v) (call : Call) {h : Host σ} {k : Host τ}
    (host : a.Alike h b k) : World.Alike a b (w.record call h) (v.record call k) := by
  refine ⟨alike.memory, ?_, host⟩
  simp only [seenIn, World.journal_record, List.filterMap_cons]
  rw [show v.journal.filterMap Call.seen? = _ from alike.seen]
  rfl

/-- The second device has been asked whether to go on. -/
theorem stepped (alike : World.Alike a b w v) (line : LineNumber) (answer : Except Error Bool) :
    World.Alike a b w (v.record (.stepped line answer) (b.step line v.host).2) :=
  ⟨alike.memory, alike.seen, alike.host.step line⟩

theorem shown (alike : World.Alike a b w v) (event : Event) :
    World.Alike a b (w.shown a event) (v.shown b event) := by
  refine ⟨⟨?_, ?_⟩, ?_, ?_⟩
  · simp [alike.memory.vars]
  · simp [alike.memory.transfer]
  · have seen := alike.seen
    simp only [seenIn] at seen
    simp [seenIn, Call.seen?, seen]
  · simpa using alike.host.trace event

/-- Alike worlds are kept by all that alike devices do, but for asking whether to go on. -/
theorem lockstep : Lockstep a b (World.Alike a b) where
  __ := TalkLockstep.of_talks Device.Alike.talks (·.memory) (·.host)
    (fun alike agree => alike.setMemory agree) (fun _ alike => alike.record _)
  poll alike :=
    have ⟨same, behind⟩ := Device.Alike.talks.poll alike.host
    ⟨same, alike.memory, alike.seen, behind⟩
  shown event alike := alike.shown event

end World.Alike

/-- In alike worlds, two actions come to the same. -/
def Exec.Parallel {α : Type} (a : Device (StateM (Host σ))) (b : Device (StateM (Host τ)))
    (p : Exec (StateT (List Call) (StateM (Host σ))) α)
    (q : Exec (StateT (List Call) (StateM (Host τ))) α) : Prop :=
  ∀ w v, World.Alike a b w v →
    (q.outcome v).1 = (p.outcome w).1 ∧ World.Alike a b (p.outcome w).2 (q.outcome v).2

theorem Program.parallel_carryOut (program : Program) (line : LineNumber) :
    Exec.Parallel a b (program.carryOut a.journaled line) (program.carryOut b.journaled line) :=
  World.Alike.lockstep.congruence.carryOut program line

end LineBasic
