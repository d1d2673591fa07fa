import LineBasic.Proofs.Run

/-!
# Relations that runs keep

A run is put together from few kinds of actions: steps on the memory, calls of the device, looks for
an interrupt, and one action after the other. A relation between the actions of two devices that
holds of these kinds and is kept by putting them together (`Congruence`) holds of lines and of whole
runs. For statements it need not hold of looks for an interrupt (`StatementCongruence`), nor, as far
as they show nothing, of what is shown (`TalkCongruence`). What a run does to its memory, but for the
log, depends on nothing but the variables and the transfer register (`Memory.Respects`).

Results:
1. `TalkCongruence.perform`, `StatementCongruence.settle`: statements, and what follows them.
2. `Congruence.carryOut`: lines without the pause behind them.
3. `Congruence.runLine`, `Congruence.runLines`: lines and runs, if asking whether to go on is related
   too.
-/

namespace LineBasic

namespace Memory

/-- Two memories agree, but for their logs. -/
structure Agree (m n : Memory) : Prop where
  vars : n.vars = m.vars
  transfer : n.transfer = m.transfer

/-- A step on the memory comes to the same in memories that agree. -/
def Respects {α : Type} (f : Memory → Except Error α × Memory) : Prop :=
  ∀ m n, m.Agree n → (f n).1 = (f m).1 ∧ (f m).2.Agree (f n).2

namespace Respects

variable {α : Type}

theorem ofExcept (result : Except Error α) : Respects fun mem => (result, mem) :=
  fun _ _ agree => ⟨rfl, agree⟩

theorem eval (x : Eval α) : Respects (·.eval x) := by
  intro m n agree
  simp only [Memory.eval, agree.vars]
  cases x.run m.vars with
  | ok | error => exact ⟨rfl, rfl, agree.transfer⟩

theorem setValue (name : String) (value : Number) :
    Respects fun mem => (.ok (), mem.setValue name value) :=
  fun _ _ agree => ⟨rfl, congrArg (·.insert name value) agree.vars, agree.transfer⟩

theorem setTransfer (t : Transfer) : Respects fun mem => (.ok (), mem.setTransfer t) :=
  fun _ _ agree => ⟨rfl, agree.vars, rfl⟩

/-- Whether there is a transfer to take depends on the register alone. -/
theorem takeTransfer : Respects Memory.takeTransfer := by
  intro m n agree
  simp only [Memory.takeTransfer, agree.transfer]
  cases m.transfer with
  | none => exact ⟨rfl, agree⟩
  | some t => exact ⟨rfl, agree.vars, rfl⟩

theorem readVars : Respects fun mem => (.ok mem.vars, mem) :=
  fun _ _ agree => ⟨congrArg Except.ok agree.vars, agree⟩

theorem note (record : Record) : Respects fun mem => (.ok (), mem.note record) :=
  fun _ _ agree => ⟨rfl, agree.vars, agree.transfer⟩

end Respects

end Memory

variable {m n : Type → Type} [Monad m] [Monad n]

/-- A relation between the actions of two devices holds of the actions that statements are made of,
and is kept when actions are put together. -/
structure TalkCongruence (a : Device m) (b : Device n)
    (rel : {α : Type} → Exec m α → Exec n α → Prop) : Prop where
  pure {α : Type} (value : α) : rel (Pure.pure value) (Pure.pure value)
  throw {α : Type} (e : Error) :
    rel (MonadExcept.throw e : Exec m α) (MonadExcept.throw e : Exec n α)
  bind {α β : Type} {p : Exec m α} {q : Exec n α} {f : α → Exec m β} {g : α → Exec n β} :
    rel p q → (∀ value, rel (f value) (g value)) → rel (p >>= f) (q >>= g)
  onMemory {α : Type} {f : Memory → Except Error α × Memory} :
    Memory.Respects f → rel (Exec.onMemory f) (Exec.onMemory f)
  print (text : String) : rel (Exec.call (a.print text)) (Exec.call (b.print text))
  input (prompt : String) : rel (Exec.call (a.input prompt)) (Exec.call (b.input prompt))

/-- The relation holds of the actions that go with statements, too: they are placed at a line, and
shown. -/
structure StatementCongruence (a : Device m) (b : Device n)
    (rel : {α : Type} → Exec m α → Exec n α → Prop) : Prop extends TalkCongruence a b rel where
  atLine {α : Type} {p : Exec m α} {q : Exec n α} (line : LineNumber) :
    rel p q → rel (Exec.atLine line p) (Exec.atLine line q)
  watch (event : Event) : rel (Program.watch a event) (Program.watch b event)

/-- The relation holds of all actions that runs are made of. -/
structure Congruence [Interruptible m] [Interruptible n] (a : Device m) (b : Device n)
    (rel : {α : Type} → Exec m α → Exec n α → Prop) : Prop extends StatementCongruence a b rel where
  poll : rel Exec.poll Exec.poll

section

variable {a : Device m} {b : Device n} {rel : {α : Type} → Exec m α → Exec n α → Prop}

namespace TalkCongruence

variable (cong : TalkCongruence a b rel)

include cong

theorem perform (statement : Statement) : rel (statement.perform a) (statement.perform b) := by
  cases statement with
  | remark | jump | stop => exact cong.pure _
  | assign name value =>
    exact cong.bind (cong.onMemory (.eval _)) fun result =>
      cong.bind (cong.onMemory (.setValue name result)) fun _ => cong.pure _
  | print literal values =>
    exact cong.bind (cong.onMemory (.eval _)) fun results =>
      cong.bind (cong.print _) fun _ => cong.pure _
  | input name =>
    refine cong.bind (cong.input _) fun reply => ?_
    cases Number.read reply with
    | some value => exact cong.bind (cong.onMemory (.setValue name value)) fun _ => cong.pure _
    | none => exact cong.bind (cong.throw _) fun _ => cong.pure _
  | branch left comparison right target =>
    exact cong.bind (cong.onMemory (.eval _)) fun x =>
      cong.bind (cong.onMemory (.eval _)) fun y => cong.pure _

theorem execute (statement : Statement) : rel (statement.execute a) (statement.execute b) :=
  cong.bind (cong.perform statement) fun t => cong.onMemory (.setTransfer t)

end TalkCongruence

namespace StatementCongruence

theorem settle (cong : StatementCongruence a b rel) (line : LineNumber) (statement : Statement) :
    rel (Program.settle a line statement) (Program.settle b line statement) :=
  cong.bind (cong.onMemory .takeTransfer) fun _ =>
    cong.bind (cong.onMemory .readVars) fun _ => cong.bind (cong.watch _) fun _ => cong.pure _

end StatementCongruence

namespace Congruence

variable [Interruptible m] [Interruptible n] (cong : Congruence a b rel)

include cong

theorem fetch (program : Program) (line : LineNumber) :
    rel (program.fetch a line) (program.fetch b line) := by
  -- What follows the look for an interrupt is written behind both of its outcomes.
  have found := cong.bind (cong.onMemory (.ofExcept (program.statement line)))
    fun statement => cong.bind (cong.onMemory (.note (.executing line statement)))
      fun _ => cong.bind (cong.watch (.executing line statement)) fun _ => cong.pure statement
  refine cong.bind cong.poll fun interrupted => ?_
  cases interrupted with
  | true => exact cong.bind (cong.throw _) fun _ => found
  | false => exact found

theorem carryOut (program : Program) (line : LineNumber) :
    rel (program.carryOut a line) (program.carryOut b line) :=
  cong.bind (cong.fetch program line) fun statement =>
    cong.bind (cong.atLine line (cong.execute statement)) fun _ => cong.settle line statement

variable (step : ∀ line, rel (Exec.call (a.step line)) (Exec.call (b.step line)))

include step

theorem pause (mode : Mode) (line : LineNumber) :
    rel (Program.pause a mode line) (Program.pause b mode line) := by
  cases mode with
  | run => exact cong.pure _
  | step =>
    refine cong.bind (step line) fun go => ?_
    cases go with
    | true => exact cong.pure _
    | false => exact cong.throw _

variable [LawfulMonad m] [LawfulMonad n]

theorem runLine (program : Program) (mode : Mode) (line : LineNumber) :
    rel (program.runLine a mode line) (program.runLine b mode line) := by
  rw [Program.runLine_eq, Program.runLine_eq]
  exact cong.bind (cong.carryOut program line) fun t =>
    cong.bind (cong.pause step mode line) fun _ =>
      cong.onMemory (.ofExcept (program.follow? line t))

theorem runLines (program : Program) (mode : Mode) (bound : Nat) (next : Option LineNumber) :
    rel (program.runLines a mode bound next) (program.runLines b mode bound next) := by
  induction bound generalizing next with
  | zero => cases next <;> exact cong.pure _
  | succ bound ih =>
    cases next with
    | none => exact cong.pure _
    | some line => exact cong.bind (cong.runLine step program mode line) ih

end Congruence

end

end LineBasic
