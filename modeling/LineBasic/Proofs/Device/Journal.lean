import LineBasic.Proofs.Run.Congruence

/-!
# The journal changes nothing

A run on a device that keeps a journal is the run on the device itself, with the journal beside it.
This holds in every lawful monad, so it holds of all devices that there can be: what is known of the
runs with a journal is known of all runs.

Results:
1. `Exec.Forgets.congruence`: the journal can be forgotten part by part.
2. `Session.run_journaled`: a run with a journal is the run.
-/

namespace LineBasic

variable {m : Type → Type} [Monad m] {α β : Type}

/-- An action with a journal beside it is another without one. -/
def Unwritten (x : StateT (List Call) m α) (y : m α) : Prop :=
  ∀ journal, Prod.fst <$> x.run journal = y

namespace Unwritten

variable [LawfulMonad m]

theorem pure (value : α) : Unwritten (m := m) (Pure.pure value) (Pure.pure value) := by
  intro journal
  rw [StateT.run_pure, map_pure]

theorem bind {x : StateT (List Call) m α} {y : m α} {f : α → StateT (List Call) m β} {g : α → m β}
    (first : Unwritten x y) (next : ∀ value, Unwritten (f value) (g value)) :
    Unwritten (x >>= f) (y >>= g) := by
  intro journal
  calc Prod.fst <$> (x >>= f).run journal
      = x.run journal >>= fun answer => Prod.fst <$> (f answer.1).run answer.2 := by
        rw [StateT.run_bind, map_bind]
    _ = x.run journal >>= fun answer => g answer.1 := by
        simp only [next _ _]
    _ = Prod.fst <$> x.run journal >>= g := (bind_map_left _ _ _).symm
    _ = y >>= g := by rw [first journal]

theorem discard {x : StateT (List Call) m α} {y : m α} (first : Unwritten x y) :
    Unwritten (Functor.discard x) (Functor.discard y) := by
  simp only [Functor.discard, map_const, Function.comp_apply, map_eq_pure_bind]
  exact .bind first fun _ => .pure _

theorem write (action : m α) (call : α → Call) : Unwritten (Device.write action call) action := by
  intro journal
  have written : (Device.write action call).run journal =
      action >>= fun answer => Pure.pure (answer, call answer :: journal) := rfl
  rw [written, map_bind]
  simp

theorem poll [Interruptible m] :
    Unwritten (m := m) Interruptible.poll Interruptible.poll := by
  intro journal
  have polled : (Interruptible.poll : StateT (List Call) m Bool).run journal =
      Interruptible.poll >>= fun set => Pure.pure (set, journal) := rfl
  rw [polled, map_bind]
  simp

end Unwritten

namespace Exec

/-- An action with a journal beside it is another without one, whatever the memory. -/
def Forgets (p : Exec (StateT (List Call) m) α) (q : Exec m α) : Prop :=
  ∀ mem, Unwritten (p mem) (q mem)

theorem bind_apply (q : Exec m α) (g : α → Exec m β) (mem : Memory) :
    (q >>= g) mem = q mem >>= fun outcome =>
      match outcome with
      | (.ok value, mem) => g value mem
      | (.error e, mem) => pure (.error e, mem) := by
  simp only [bind, ExceptT.bind, ExceptT.mk, StateT.bind]
  congr 1
  funext ⟨result, mem⟩
  cases result <;> rfl

namespace Forgets

variable [LawfulMonad m] {p : Exec (StateT (List Call) m) α} {q : Exec m α}

theorem onMemory (f : Memory → Except Error α × Memory) :
    Forgets (m := m) (Exec.onMemory f) (Exec.onMemory f) :=
  fun _ => .pure _

theorem pure (value : α) : Forgets (m := m) (Pure.pure value) (Pure.pure value) :=
  fun _ => .pure _

theorem throw (e : Error) :
    Forgets (m := m) (MonadExcept.throw e : Exec _ α) (MonadExcept.throw e : Exec _ α) :=
  fun _ => .pure _

theorem bind {f : α → Exec (StateT (List Call) m) β} {g : α → Exec m β} (first : Forgets p q)
    (next : ∀ value, Forgets (f value) (g value)) : Forgets (p >>= f) (q >>= g) := by
  intro mem
  rw [bind_apply, bind_apply]
  refine .bind (first mem) fun outcome => ?_
  obtain ⟨_ | value, mem⟩ := outcome
  · exact .pure _
  · exact next value mem

theorem call {action : StateT (List Call) m (Except Error α)} {action' : m (Except Error α)}
    (forgets : Unwritten action action') : Forgets (Exec.call action) (Exec.call action') :=
  fun _ => .bind forgets fun _ => .pure _

theorem atLine (line : LineNumber) (inner : Forgets p q) :
    Forgets (Exec.atLine line p) (Exec.atLine line q) := by
  refine fun mem => .bind (inner mem) fun outcome => ?_
  obtain ⟨_ | _, _⟩ := outcome <;> exact .pure _

theorem watch (dev : Device m) (event : Event) :
    Forgets (Program.watch dev.journaled event) (Program.watch dev event) := by
  refine fun mem => .bind (.write _ _) fun answer => ?_
  cases answer <;> exact .pure _

/-- Forgetting the journal is a relation that runs keep. -/
theorem congruence [Interruptible m] (dev : Device m) :
    Congruence dev.journaled dev fun p q => Forgets p q where
  pure := .pure
  throw := .throw
  bind := .bind
  atLine line := .atLine line
  onMemory {_} f _ := .onMemory f
  poll := .call (.bind .poll fun _ => .pure _)
  print _ := .call (.write _ _)
  input _ := .call (.write _ _)
  watch event := .watch dev event

end Forgets

end Exec

variable [LawfulMonad m]

/-- A run with a journal is the run, with the journal beside it. -/
theorem Session.run_journaled [Interruptible m] (session : Session) (dev : Device m) (mode : Mode)
    (bound : Nat) (journal : List Call) :
    Prod.fst <$> (session.run dev.journaled mode bound).run journal =
      session.run dev mode bound := by
  refine Unwritten.bind ?_ (fun outcome => .pure _) journal
  refine .bind (.discard .poll) fun _ => ?_
  have forgets := (Exec.Forgets.congruence dev).runLines (fun line => .call (.write _ _))
    session.program mode bound session.program.first?
  exact .bind (forgets _) fun _ => .pure _

end LineBasic
