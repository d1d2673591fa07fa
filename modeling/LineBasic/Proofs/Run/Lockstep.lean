import LineBasic.Proofs.Device.Indistinct
import LineBasic.Proofs.Run.Congruence

/-!
# Runs in lockstep

Two devices serve a program in lockstep when some relation between their worlds is kept by all that
they do (`Lockstep`). Then the same actions on both come to the same result, and to related worlds.
For statements alone it is enough that the relation is kept by what they do (`TalkLockstep`).

Results:
1. `TalkLockstep.of_talks`: devices that talk alike serve statements in lockstep.
2. `TalkLockstep.congruence`: coming to the same is a relation that statements keep.
3. `Lockstep.congruence`: it is one that runs keep.
-/

namespace LineBasic

variable {σ τ : Type}

/-- A relation between the worlds of two devices is kept by steps on the memory and by calls in which
the program speaks or listens, and in related worlds both devices give the same answers. -/
structure TalkLockstep (a : Device (StateM (Host σ))) (b : Device (StateM (Host τ)))
    (R : World σ → World τ → Prop) : Prop where
  agree {w : World σ} {v : World τ} : R w v → w.memory.Agree v.memory
  setMemory {w : World σ} {v : World τ} {m n : Memory} :
    R w v → m.Agree n → R (w.setMemory m) (v.setMemory n)
  print {w : World σ} {v : World τ} (text : String) : R w v →
    let answer := (a.print text w.host).1
    (b.print text v.host).1 = answer ∧
      R (w.record (.printed text answer) (a.print text w.host).2)
        (v.record (.printed text answer) (b.print text v.host).2)
  input {w : World σ} {v : World τ} (prompt : String) : R w v →
    let answer := (a.input prompt w.host).1
    (b.input prompt v.host).1 = answer ∧
      R (w.record (.asked prompt answer) (a.input prompt w.host).2)
        (v.record (.asked prompt answer) (b.input prompt v.host).2)

/-- The relation is kept by looks for an interrupt and by showing an event, too. -/
structure Lockstep (a : Device (StateM (Host σ))) (b : Device (StateM (Host τ)))
    (R : World σ → World τ → Prop) : Prop extends TalkLockstep a b R where
  poll {w : World σ} {v : World τ} :
    R w v → v.host.interrupted = w.host.interrupted ∧ R w.heard v.heard
  shown {w : World σ} {v : World τ} (event : Event) :
    R w v → R (w.shown a event) (v.shown b event)

/-- In related worlds, two actions come to the same result and to related worlds. -/
def Exec.InStep {α : Type} (R : World σ → World τ → Prop)
    (p : Exec (StateT (List Call) (StateM (Host σ))) α)
    (q : Exec (StateT (List Call) (StateM (Host τ))) α) : Prop :=
  ∀ w v, R w v → (q.outcome v).1 = (p.outcome w).1 ∧ R (p.outcome w).2 (q.outcome v).2

namespace Exec.InStep

variable {α β : Type} {R : World σ → World τ → Prop}
  {p : Exec (StateT (List Call) (StateM (Host σ))) α}
  {q : Exec (StateT (List Call) (StateM (Host τ))) α}

theorem bind {f : α → Exec (StateT (List Call) (StateM (Host σ))) β}
    {g : α → Exec (StateT (List Call) (StateM (Host τ))) β} (first : InStep R p q)
    (next : ∀ value, InStep R (f value) (g value)) : InStep R (p >>= f) (q >>= g) := by
  intro w v related
  have same := first w v related
  rw [outcome_bind, outcome_bind]
  generalize p.outcome w = left, q.outcome v = right at same ⊢
  obtain ⟨_, w⟩ := left
  obtain ⟨result, v⟩ := right
  obtain ⟨rfl, behind⟩ := same
  cases result with
  | error e => exact ⟨rfl, behind⟩
  | ok value => exact next value w v behind

theorem atLine (line : LineNumber) (inner : InStep R p q) :
    InStep R (Exec.atLine line p) (Exec.atLine line q) := by
  intro w v related
  have same := inner w v related
  rw [outcome_atLine, outcome_atLine]
  generalize p.outcome w = left, q.outcome v = right at same ⊢
  obtain ⟨_, w⟩ := left
  obtain ⟨result, v⟩ := right
  obtain ⟨rfl, behind⟩ := same
  cases result with
  | error | ok => exact ⟨rfl, behind⟩

end Exec.InStep

variable {a : Device (StateM (Host σ))} {b : Device (StateM (Host τ))}
  {R : World σ → World τ → Prop}

/-- Devices that talk alike serve statements in lockstep: what is asked of them leaves related hosts,
and a call in the journal. -/
theorem TalkLockstep.of_talks {S : Host σ → Host τ → Prop} (talks : a.Talks b S)
    (agree : ∀ {w v}, R w v → w.memory.Agree v.memory) (host : ∀ {w v}, R w v → S w.host v.host)
    (setMemory : ∀ {w v m n}, R w v → m.Agree n → R (w.setMemory m) (v.setMemory n))
    (record : ∀ {w v h k call}, call.isTalk → R w v → S h k →
      R (w.record call h) (v.record call k)) : TalkLockstep a b R where
  agree := agree
  setMemory := setMemory
  print text related :=
    have ⟨same, behind⟩ := talks.print (host related) text
    ⟨same, record rfl related behind⟩
  input prompt related :=
    have ⟨same, behind⟩ := talks.input (host related) prompt
    ⟨same, record rfl related behind⟩

/-- Coming to the same is a relation that statements keep. -/
theorem TalkLockstep.congruence (kept : TalkLockstep a b R) :
    TalkCongruence a.journaled b.journaled fun p q => Exec.InStep R p q where
  pure _ := fun _ _ related => ⟨rfl, related⟩
  throw _ := fun _ _ related => ⟨rfl, related⟩
  bind := .bind
  onMemory respects := fun _ _ related =>
    have ⟨same, agree⟩ := respects _ _ (kept.agree related)
    ⟨same, kept.setMemory related agree⟩
  print text := by
    intro w v related
    obtain ⟨same, behind⟩ := kept.print text related
    simp only [Device.journaled, Exec.outcome_call]
    rw [same]
    exact ⟨rfl, behind⟩
  input prompt := by
    intro w v related
    obtain ⟨same, behind⟩ := kept.input prompt related
    simp only [Device.journaled, Exec.outcome_call]
    rw [same]
    exact ⟨rfl, behind⟩

/-- Coming to the same is a relation that runs keep. -/
theorem Lockstep.congruence (kept : Lockstep a b R) :
    Congruence a.journaled b.journaled fun p q => Exec.InStep R p q where
  __ := kept.toTalkLockstep.congruence
  atLine line := .atLine line
  poll := fun _ _ related =>
    have ⟨same, behind⟩ := kept.poll related
    ⟨congrArg Except.ok same, behind⟩
  watch event := by
    intro w v related
    rw [Program.outcome_watch, Program.outcome_watch]
    exact ⟨rfl, kept.shown event related⟩

end LineBasic
