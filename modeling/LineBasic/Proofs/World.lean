import LineBasic.Device.Journal
import LineBasic.Statement.Execute
import Mathlib

/-!
# The world of an action

What is carried out in `Exec` on a device with a journal changes three things: the memory, the
journal, and the host of the device. `World` holds them together, and `Exec.outcome` says what an
action comes to in a world. There is one equation for each way of making actions, so that proofs
about runs need not look into the monads.
-/

namespace LineBasic

/-- All that a run can change: the memory, the journal with the latest call first, and the host of
the device. -/
structure World (σ : Type) where
  memory : Memory
  journal : List Call
  host : Host σ

namespace World

variable {σ : Type}

/-- With a call in the journal, and the host that the call left behind. -/
def record (w : World σ) (call : Call) (host : Host σ) : World σ :=
  { w with journal := call :: w.journal, host }

/-- With the memory changed. -/
def setMemory (w : World σ) (memory : Memory) : World σ := { w with memory }

/-- With a record in the log. -/
def note (w : World σ) (record : Record) : World σ := w.setMemory (w.memory.note record)

/-- With an empty transfer register. -/
def emptied (w : World σ) : World σ := { w with memory := { w.memory with transfer := none } }

/-- With the variables changed. -/
def setVars (w : World σ) (vars : Variables) : World σ :=
  { w with memory := { w.memory with vars } }

/-- With an interrupt forgotten. -/
def heard (w : World σ) : World σ := { w with host := { w.host with interrupted := false } }

theorem heard_of_clear {w : World σ} (clear : w.host.interrupted = false) : w.heard = w := by
  obtain ⟨memory, journal, device, interrupted⟩ := w
  cases clear
  rfl

@[simp] theorem journal_record (w : World σ) (call : Call) (host : Host σ) :
    (w.record call host).journal = call :: w.journal := rfl

@[simp] theorem memory_setMemory (w : World σ) (memory : Memory) :
    (w.setMemory memory).memory = memory := rfl

@[simp] theorem transfer_emptied (w : World σ) : w.emptied.memory.transfer = none := rfl

@[simp] theorem vars_setVars (w : World σ) (vars : Variables) :
    (w.setVars vars).memory.vars = vars := rfl

@[simp] theorem host_setVars (w : World σ) (vars : Variables) :
    (w.setVars vars).host = w.host := rfl

end World

namespace Exec

variable {σ α β : Type}

/-- What an action comes to in a world: its result, and the world behind it. -/
def outcome (exec : Exec (StateT (List Call) (StateM (Host σ))) α) (w : World σ) :
    Except Error α × World σ :=
  let (((result, memory), journal), host) := exec w.memory w.journal w.host
  (result, ⟨memory, journal, host⟩)

@[simp] theorem outcome_pure (value : α) (w : World σ) :
    outcome (pure value) w = (.ok value, w) := rfl

@[simp] theorem outcome_throw (e : Error) (w : World σ) :
    outcome (throw e : Exec _ α) w = (.error e, w) := rfl

theorem outcome_bind (exec : Exec (StateT (List Call) (StateM (Host σ))) α)
    (next : α → Exec (StateT (List Call) (StateM (Host σ))) β) (w : World σ) :
    outcome (exec >>= next) w =
      match outcome exec w with
      | (.ok value, w) => outcome (next value) w
      | (.error e, w) => (.error e, w) := by
  simp only [outcome, bind, ExceptT.bind, ExceptT.mk, StateT.bind]
  rcases exec w.memory w.journal w.host with ⟨⟨⟨_ | _, _⟩, _⟩, _⟩ <;> rfl

theorem outcome_map (g : α → β) (exec : Exec (StateT (List Call) (StateM (Host σ))) α)
    (w : World σ) :
    (g <$> exec).outcome w = ((exec.outcome w).1.map g, (exec.outcome w).2) := by
  rw [map_eq_pure_bind, outcome_bind]
  rcases exec.outcome w with ⟨_ | _, _⟩ <;> rfl

@[simp] theorem outcome_onMemory (f : Memory → Except Error α × Memory) (w : World σ) :
    outcome (onMemory f) w = ((f w.memory).1, w.setMemory (f w.memory).2) := rfl

@[simp] theorem outcome_ofExcept (result : Except Error α) (w : World σ) :
    outcome (ofExcept result) w = (result, w) := rfl

theorem outcome_eval (x : Eval α) (w : World σ) :
    outcome (eval x) w =
      match x.run w.memory.vars with
      | .ok value vars => (.ok value, w.setVars vars)
      | .error e vars => (.error e, w.setVars vars) := by
  simp only [eval, outcome_onMemory, Memory.eval]
  cases x.run w.memory.vars <;> rfl

@[simp] theorem outcome_note (record : Record) (w : World σ) :
    outcome (note record) w = (.ok (), w.note record) := rfl

@[simp] theorem outcome_poll (w : World σ) :
    outcome poll w = (.ok w.host.interrupted, w.heard) := rfl

@[simp] theorem outcome_call (action : StateM (Host σ) (Except Error α))
    (call : Except Error α → Call) (w : World σ) :
    outcome (Exec.call (Device.write action call)) w =
      ((action w.host).1, w.record (call (action w.host).1) (action w.host).2) := rfl

theorem outcome_atLine (line : LineNumber)
    (exec : Exec (StateT (List Call) (StateM (Host σ))) α) (w : World σ) :
    outcome (atLine line exec) w =
      match outcome exec w with
      | (.ok value, w) => (.ok value, w)
      | (.error e, w) => (.error (e.orAtLine line), w) := by
  simp only [outcome, atLine, bind, StateT.bind]
  rcases exec w.memory w.journal w.host with ⟨⟨⟨_ | _, _⟩, _⟩, _⟩ <;> rfl

end Exec

end LineBasic
