import LineBasic.Proofs.Device.Same
import LineBasic.Proofs.Run.Lockstep
import LineBasic.Proofs.Run.Report

/-!
# What determines a run

A run depends on the program, on the mode, and on how its device behaves. What earlier runs have
left behind has no part in it: the variables and the register are cleared, an interrupt is forgotten,
and the log is not read. Nor has the make of the device: two devices do for one another when no
sequence of requests tells them apart (`Device.Same`).

Results:
1. `World.Same.lockstep`, `World.Same.step`: on devices that behave the same, all actions of a run
   come to the same.
2. `Session.same_report`: what a run shows is determined by program, mode and device.
-/

namespace LineBasic

/-! ## Worlds in which a run finds the same -/

/-- A call, but for what the device made of an event. -/
def Call.plain : Call → Call
  | traced event _ => .traced event (.ok ())
  | call => call

variable {σ τ : Type} {a : Device (StateM (Host σ))} {b : Device (StateM (Host τ))}

/-- A run finds the same in two worlds, and has made the same calls. -/
structure World.Same (a : Device (StateM (Host σ))) (b : Device (StateM (Host τ))) (w : World σ)
    (v : World τ) : Prop where
  memory : w.memory.Agree v.memory
  calls : v.journal.map Call.plain = w.journal.map Call.plain
  host : a.Same w.host b v.host

namespace World.Same

variable {w : World σ} {v : World τ}

theorem record (same : World.Same a b w v) (call : Call) {h : Host σ} {k : Host τ}
    (host : a.Same h b k) : World.Same a b (w.record call h) (v.record call k) :=
  ⟨same.memory, by simp [same.calls], host⟩

theorem shown (same : World.Same a b w v) (event : Event) :
    World.Same a b (w.shown a event) (v.shown b event) where
  memory := ⟨by simp [same.memory.vars], by simp [same.memory.transfer]⟩
  calls := by simp [Call.plain, same.calls]
  host := by simpa using same.host.trace event

theorem lockstep : Lockstep a b (World.Same a b) where
  __ := TalkLockstep.of_talks Device.Same.talks (·.memory) (·.host)
    (fun same agree => ⟨agree, same.calls, same.host⟩) (fun _ same => same.record _)
  poll same :=
    have ⟨one, behind⟩ := Device.Same.talks.poll same.host
    ⟨one, same.memory, same.calls, behind⟩
  shown event same := same.shown event

/-- So does asking whether to go on. -/
theorem step (line : LineNumber) :
    Exec.InStep (World.Same a b) (Exec.call (a.journaled.step line))
      (Exec.call (b.journaled.step line)) := by
  intro w v same
  obtain ⟨one, behind⟩ := same.host.step line
  simp only [Device.journaled, Exec.outcome_call]
  rw [one]
  exact ⟨rfl, same.record _ behind⟩

end World.Same

/-! ## Runs -/

namespace Session

/-- What a run shows is determined by program, mode and device: how it ends, the calls it makes, and
the variables behind it. -/
theorem same_report {left right : Session} (program : right.program = left.program) {r : σ} {s : τ}
    (same : a.Same ⟨r, false⟩ b ⟨s, false⟩) (mode : Mode) (bound : Nat) (i j : Bool) :
    let first := left.report a mode bound ⟨r, i⟩
    let second := right.report b mode bound ⟨s, j⟩
    second.ending = first.ending ∧
      second.calls.map Call.plain = first.calls.map Call.plain ∧
      second.session.memory.vars = first.session.memory.vars := by
  have started : World.Same a b (left.started mode ⟨r, i⟩) (right.started mode ⟨s, j⟩) :=
    ⟨⟨rfl, rfl⟩, rfl, same⟩
  obtain ⟨result, behind⟩ := (World.Same.lockstep.congruence.runLines World.Same.step left.program
    mode bound left.program.first?) _ _ started
  intro first second
  have tells : first.Tells _ _ := tells_report (Prod.eta _).symm
  have tells' : second.Tells _ _ := tells_report (Prod.eta _).symm
  rw [tells.ending, tells.calls, tells.vars, tells'.ending, tells'.calls, tells'.vars, program,
    List.map_reverse, List.map_reverse]
  exact ⟨congrArg _ result, congrArg _ behind.calls, behind.memory.vars⟩

end Session

end LineBasic
