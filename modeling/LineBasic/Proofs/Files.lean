import LineBasic.Files.Disk
import LineBasic.Proofs.Device.Journal
import LineBasic.Proofs.Run.Congruence
import LineBasic.Terminal

/-!
# What leaves the files alone

Beside its device a session has files, whatever they are: `φ` is the state of them. A terminal knows
nothing of them (`Terminal.withFiles`), so neither printing nor reading lines nor a whole run at the
terminal touches a file. Of the files themselves it is asked only that reading one changes none, and
that a file which could not be written is as it was (`Files.Steady`).

Results:
1. `Keeps.congruence`, `Session.keeps_run`: a run at a terminal leaves the files as they are.
2. `Files.steady_onDisk`: the files of a disk are steady.
-/

namespace LineBasic

variable {φ σ α β : Type}

/-- An action leaves the files as they are. -/
def Keeps (x : StateT φ (StateM (Host σ)) α) : Prop := ∀ files host, (x files host).1.2 = files

namespace Keeps

theorem pure (value : α) : Keeps (Pure.pure value : StateT φ (StateM (Host σ)) α) := fun _ _ => rfl

theorem bind {x : StateT φ (StateM (Host σ)) α} {f : α → StateT φ (StateM (Host σ)) β}
    (first : Keeps x) (next : ∀ value, Keeps (f value)) : Keeps (x >>= f) := fun files host =>
  (next _ _ _).trans (first files host)

/-- What knows nothing of the files leaves them as they are. -/
theorem lift (action : StateM (Host σ) α) : Keeps (StateT.lift action : StateT φ _ α) :=
  fun _ _ => rfl

theorem poll : Keeps (φ := φ) (Interruptible.poll : StateT φ (StateM (Host σ)) Bool) :=
  fun _ _ => rfl

end Keeps

/-- Reading a file changes none, and neither does writing one that cannot be written. -/
structure Files.Steady (files : Files (StateT φ (StateM (Host σ)))) : Prop where
  read (name : String) : Keeps (files.read name)
  write (name text : String) (before : φ) (host : Host σ) (fault : FileFault) :
    (files.write name text before host).1.1 = .error fault →
      (files.write name text before host).1.2 = before

namespace Files.Steady

variable {files : Files (StateT φ (StateM (Host σ)))} (steady : files.Steady)

include steady

theorem load (name : String) : Keeps (files.load name) := by
  refine .bind (steady.read name) fun answer => ?_
  cases answer with
  | error fault => cases fault <;> exact .pure _
  | ok bytes =>
    dsimp only
    cases String.fromUTF8? bytes <;> exact .pure _

/-- When a file cannot be saved, no file has changed. -/
theorem save {name text : String} {before behind : φ} {host host' : Host σ} {e : Error}
    (fails : files.save name text before host = ((.error e, behind), host')) : behind = before := by
  have spared := steady.write name text before host
  simp only [Files.save, bind, StateT.bind] at fails
  generalize files.write name text before host = written at fails spared
  obtain ⟨⟨_ | _, _⟩, _⟩ := written
  · cases fails
    exact spared _ rfl
  · cases fails

end Files.Steady

/-- The files of a disk are steady. -/
theorem Files.steady_onDisk :
    (Files.onDisk id fun changed _ => changed : Files (StateT Disk (StateM (Host σ)))).Steady where
  read _ := fun _ _ => rfl
  write name text before host fault fails := by
    revert fails
    simp only [Files.onDisk, bind, StateT.bind, getThe, MonadStateOf.get, StateT.get, Pure.pure,
      StateT.pure, id]
    cases Disk.write before name text with
    | error fault => exact fun _ => rfl
    | ok changed => exact nofun

namespace Terminal

/-- The terminal, beside some files. -/
def withFiles (φ : Type) (terminal : Terminal (StateM (Host σ))) :
    Terminal (StateT φ (StateM (Host σ))) where
  write s := StateT.lift (terminal.write s)
  read prompt := StateT.lift (terminal.read prompt)

variable (terminal : Terminal (StateM (Host σ)))

theorem keeps_print (s : String) : Keeps ((terminal.withFiles φ).print s) :=
  .bind (.lift _) fun answer => by cases answer <;> exact .pure _

theorem keeps_printAll (texts : List String) : Keeps ((terminal.withFiles φ).printAll texts) := by
  induction texts with
  | nil => exact .pure _
  | cons s rest ih =>
    refine .bind (terminal.keeps_print s) fun answer => ?_
    cases answer with
    | ok _ => exact ih
    | error e => exact .pure _

theorem keeps_input (prompt : String) : Keeps ((terminal.withFiles φ).input prompt) :=
  .bind (.lift _) fun typed => by cases typed <;> exact .pure _

theorem keeps_step : Keeps (terminal.withFiles φ).step :=
  .bind (.lift _) fun typed => by cases typed <;> exact .pure _

theorem keeps_trace (traced : Bool) (event : Event) :
    Keeps (((terminal.withFiles φ).console traced).trace event) := by
  cases traced with
  | true => exact .lift _
  | false => exact .pure _

end Terminal

/-! ## Runs -/

/-- What a run does at a terminal leaves the files as they are. -/
theorem Keeps.congruence (terminal : Terminal (StateM (Host σ))) (traced : Bool) :
    Congruence ((terminal.withFiles φ).console traced) ((terminal.withFiles φ).console traced)
      fun p _ => ∀ mem, Keeps (p mem) where
  pure _ _ := .pure _
  throw _ _ := .pure _
  bind first next := by
    intro mem
    rw [Exec.bind_apply]
    refine .bind (first mem) fun outcome => ?_
    obtain ⟨_ | value, mem⟩ := outcome
    · exact .pure _
    · exact next value mem
  atLine line inner mem := by
    refine .bind (inner mem) fun outcome => ?_
    obtain ⟨_ | _, _⟩ := outcome <;> exact .pure _
  onMemory _ _ := .pure _
  poll _ := .bind (.bind .poll fun _ => .pure _) fun _ => .pure _
  print text _ := .bind (terminal.keeps_print text) fun _ => .pure _
  input prompt _ := .bind (terminal.keeps_input prompt) fun _ => .pure _
  watch event _ := by
    refine .bind (terminal.keeps_trace traced event) fun answer => ?_
    cases answer <;> exact .pure _

/-- A run at a terminal leaves the files as they are. -/
theorem Session.keeps_run (session : Session) (terminal : Terminal (StateM (Host σ)))
    (traced : Bool) (mode : Mode) (bound : Nat) :
    Keeps (session.run ((terminal.withFiles φ).console traced) mode bound) := by
  have lines := (Keeps.congruence (φ := φ) terminal traced).runLines
    (fun _ _ => .bind terminal.keeps_step fun _ => .pure _) session.program mode bound
    session.program.first?
  exact .bind (.bind (.bind .poll fun _ => .pure _) fun _ => .bind (lines _) fun _ => .pure _)
    fun _ => .pure _

end LineBasic
