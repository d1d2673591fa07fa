import LineBasic.Prompt
import LineBasic.Proofs.Files
import LineBasic.Proofs.Session.History
import LineBasic.Proofs.Session.Load

/-!
# What a typed text can do to a session

A typed text is refused as it stands, or it is a line with a number, or a command; `Responded` says
so. What each of them does to the program, to the variables and to the files is stated command by
command, for its failures and its successes apart. Together this shows that whatever fails leaves no
harm behind: only a run that fails has changed the variables, and nothing else has changed at all.

Results:
1. `performed_runProgram`, `performed_save`, `performed_old`: the commands that could do harm.
2. `careful`: what a command does not do.
3. `responded`: all that a typed text can come to.
4. `respond_unharmed`: what fails harms nothing, and what succeeds changes what it is meant to.
-/

namespace LineBasic

variable {φ σ α β : Type}

/-- All that a typed text can change: the session, the files, and the host of the terminal. -/
structure Setting (φ σ : Type) where
  session : Session
  files : φ
  host : Host σ

/-- Program, variables and files are as they were. -/
structure Setting.Unharmed (w after : Setting φ σ) : Prop where
  program : after.session.program = w.session.program
  vars : after.session.memory.vars = w.session.memory.vars
  files : after.files = w.files

/-- A text asks for a command: it has no number, and says what the command is. -/
def Command.AskedBy (command : Command) (typed : String) : Prop :=
  (∃ line, Line.ofText typed = .ok line ∧ line.isDirect = true) ∧
    Command.ofText typed = .ok command

namespace Prompt

/-! ## What an action at the prompt comes to -/

/-- The result of an action at the prompt, and the setting behind it. -/
def outcome (action : Prompt (StateT φ (StateM (Host σ))) α) (w : Setting φ σ) :
    Except Error α × Setting φ σ :=
  let (((result, session), files), host) := action w.session w.files w.host
  (result, ⟨session, files, host⟩)

theorem outcome_bind (action : Prompt (StateT φ (StateM (Host σ))) α)
    (next : α → Prompt (StateT φ (StateM (Host σ))) β) (w : Setting φ σ) :
    outcome (action >>= next) w =
      match outcome action w with
      | (.ok value, w) => outcome (next value) w
      | (.error e, w) => (.error e, w) := by
  simp only [outcome, bind, ExceptT.bind, ExceptT.mk, StateT.bind]
  rcases action w.session w.files w.host with ⟨⟨⟨_ | _, _⟩, _⟩, _⟩ <;> rfl

@[simp] theorem outcome_onSession (f : Session → Except Error α × Session) (w : Setting φ σ) :
    outcome (onSession f) w = ((f w.session).1, { w with session := (f w.session).2 }) := rfl

theorem outcome_call (action : Session → StateT φ (StateM (Host σ)) (Except Error α))
    (w : Setting φ σ) :
    outcome (call action) w =
      let ((result, files), host) := action w.session w.files w.host
      (result, ⟨w.session, files, host⟩) := rfl

@[simp] theorem outcome_note (record : Record) (w : Setting φ σ) :
    outcome (note record) w = (.ok (), { w with session := w.session.noteAll [record] }) := rfl

variable {w after : Setting φ σ}

/-- A call that leaves the files alone changes nothing but the host. -/
theorem unharmed_call {action : Session → StateT φ (StateM (Host σ)) (Except Error α)}
    (keeps : ∀ session, Keeps (action session)) {result : Except Error α}
    (done : (call action).outcome w = (result, after)) :
    after.session = w.session ∧ after.files = w.files := by
  rw [outcome_call] at done
  have kept := keeps w.session w.files w.host
  generalize action w.session w.files w.host = left at done kept
  obtain ⟨⟨_, _⟩, _⟩ := left
  cases done
  exact ⟨rfl, kept⟩

/-! ## Commands -/

variable {terminal : Terminal (StateM (Host σ))} {files : Files (StateT φ (StateM (Host σ)))}
  {name : String} {bound : Nat} {flow : Flow} {e : Error}

/-- A run changes neither the program nor the files, however it ends. -/
theorem performed_runProgram {traced : Bool} {mode : Mode} {result : Except Error Flow}
    (done : (runProgram ((terminal.withFiles φ).console traced) mode bound).outcome w =
      (result, after)) :
    after.session.program = w.session.program ∧ after.files = w.files := by
  have kept := w.session.keeps_run terminal traced mode bound w.files w.host
  have program : (w.session.run ((terminal.withFiles φ).console traced) mode bound w.files
    w.host).1.1.2.program = w.session.program := rfl
  simp only [outcome, runProgram, bind, StateT.bind] at done
  generalize w.session.run ((terminal.withFiles φ).console traced) mode bound w.files w.host = run
    at done kept program
  obtain ⟨⟨⟨ending, session⟩, _⟩, _⟩ := run
  cases ending <;> cases done <;> exact ⟨program, kept⟩

/-- Saving leaves the program as it is. It changes no file if it fails, or if there is no
program. -/
theorem performed_save (steady : files.Steady) {result : Except Error Unit}
    (done : (save files name).outcome w = (result, after)) :
    after.session.program = w.session.program ∧ (∀ e, result = .error e → w.Unharmed after) ∧
      (after.files = w.files ∨ w.session.program.isEmpty = false) := by
  rw [save, outcome_bind, outcome_call] at done
  cases empty : w.session.program.isEmpty with
  | true =>
    simp only [empty] at done
    cases done
    exact ⟨rfl, fun _ _ => ⟨rfl, rfl, rfl⟩, .inl rfl⟩
  | false =>
    simp only [empty] at done
    cases saved : files.save name w.session.program.toFile w.files w.host with
    | mk left host =>
      obtain ⟨_ | _, changed⟩ := left
      · simp only [Bool.false_eq_true, if_false, saved] at done
        cases done
        exact ⟨rfl, fun _ _ => ⟨rfl, rfl, steady.save saved⟩, .inr rfl⟩
      · simp only [Bool.false_eq_true, if_false, saved] at done
        cases done
        exact ⟨rfl, nofun, .inr rfl⟩

/-- Loading changes no file, and if it fails, nothing else. -/
theorem performed_old (steady : files.Steady) {result : Except Error Unit}
    (done : (old files name).outcome w = (result, after)) :
    after.files = w.files ∧ ∀ e, result = .error e → w.Unharmed after := by
  rw [old, outcome_bind] at done
  cases read : (call fun _ => files.load name).outcome w with
  | mk text v =>
    obtain ⟨session, kept⟩ := unharmed_call (fun _ => steady.load name) read
    rw [read] at done
    cases text with
    | error e =>
      cases done
      exact ⟨kept, fun _ _ => ⟨by rw [session], by rw [session], kept⟩⟩
    | ok text =>
      simp only [outcome_bind, outcome_note, outcome_onSession] at done
      cases done
      refine ⟨kept, fun e fails => ?_⟩
      rcases (v.session.noteAll [.loaded name]).load_cases text with
        ⟨_, succeeds, _⟩ | ⟨_, _, _, program, vars⟩
      · cases succeeds.symm.trans fails
      · exact ⟨by rw [program, session]; rfl, by rw [vars, session]; rfl, kept⟩

/-- What a command is not to do. If it fails, it has changed neither program nor files, and the
variables only if it was to run the program. If it succeeds, the program is another only if it was to
be cleared or replaced, and a file only if a program that is there was to be saved. -/
structure Careful (command : Command) (w : Setting φ σ) (result : Except Error Flow)
    (after : Setting φ σ) : Prop where
  failure : ∀ e, result = .error e →
    after.session.program = w.session.program ∧ after.files = w.files ∧
      (command = .run ∨ command = .debug ∨
        after.session.memory.vars = w.session.memory.vars)
  program : after.session.program = w.session.program ∨ command = .clear ∨
    ∃ name, command = .old name
  files : after.files = w.files ∨
    (∃ name, command = .save name) ∧ w.session.program.isEmpty = false

/-- What changes neither the session nor the files is careful, whatever it was. -/
theorem careful_of_same {command : Command} {result : Except Error Flow}
    (session : after.session = w.session) (files : after.files = w.files) :
    Careful command w result after :=
  ⟨fun _ _ => ⟨by rw [session], files, .inr (.inr (by rw [session]))⟩, .inl (by rw [session]),
    .inl files⟩

/-- An action is followed by going on, if it does not fail. -/
theorem outcome_proceed {action : Prompt (StateT φ (StateM (Host σ))) Unit}
    {result : Except Error Flow}
    (done : (do action; return Flow.proceed : Prompt _ Flow).outcome w = (result, after)) :
    ∃ first, action.outcome w = (first, after) ∧ result = first.map fun _ => .proceed := by
  rw [outcome_bind] at done
  cases known : action.outcome w with
  | mk first v =>
    rw [known] at done
    cases first with
    | error e =>
      cases done
      exact ⟨_, rfl, rfl⟩
    | ok value =>
      cases done
      exact ⟨_, rfl, rfl⟩

theorem failure_of_unharmed {command : Command} {first : Except Error Unit}
    (unharmed : ∀ e, first = .error e → w.Unharmed after) (e : Error)
    (fails : (first.map fun _ => Flow.proceed) = .error e) :
    after.session.program = w.session.program ∧ after.files = w.files ∧
      (command = .run ∨ command = .debug ∨
        after.session.memory.vars = w.session.memory.vars) := by
  cases first with
  | error e =>
    obtain ⟨program, vars, files⟩ := unharmed e rfl
    exact ⟨program, files, .inr (.inr vars)⟩
  | ok => cases fails

/-- All commands are careful. -/
theorem careful (steady : files.Steady) {command : Command} {result : Except Error Flow}
    (done : (perform (terminal.withFiles φ) files bound command).outcome w = (result, after)) :
    Careful command w result after := by
  cases command with
  | run =>
    obtain ⟨program, kept⟩ := performed_runProgram done
    exact ⟨fun _ _ => ⟨program, kept, .inl rfl⟩, .inl program, .inl kept⟩
  | debug =>
    obtain ⟨program, kept⟩ := performed_runProgram done
    exact ⟨fun _ _ => ⟨program, kept, .inr (.inl rfl)⟩, .inl program, .inl kept⟩
  | list first last =>
    obtain ⟨_, shown, _⟩ := outcome_proceed done
    obtain ⟨session, kept⟩ := unharmed_call (fun _ => terminal.keeps_printAll _) shown
    exact careful_of_same session kept
  | help =>
    obtain ⟨_, shown, _⟩ := outcome_proceed done
    obtain ⟨session, kept⟩ := unharmed_call (fun _ => terminal.keeps_print _) shown
    exact careful_of_same session kept
  | quit =>
    cases done
    exact careful_of_same rfl rfl
  | clear =>
    cases done
    exact ⟨nofun, .inr (.inl rfl), .inl rfl⟩
  | save name =>
    obtain ⟨first, saved, rfl⟩ := outcome_proceed done
    obtain ⟨program, unharmed, changed⟩ := performed_save steady saved
    exact ⟨failure_of_unharmed unharmed, .inl program,
      changed.imp_right fun full => ⟨⟨name, rfl⟩, full⟩⟩
  | old name =>
    obtain ⟨first, loaded, rfl⟩ := outcome_proceed done
    obtain ⟨kept, unharmed⟩ := performed_old steady loaded
    exact ⟨failure_of_unharmed unharmed, .inr (.inr ⟨name, rfl⟩), .inl kept⟩

/-! ## Typed texts -/

/-- All that a typed text can come to. -/
inductive Responded (terminal : Terminal (StateM (Host σ)))
    (files : Files (StateT φ (StateM (Host σ)))) (bound : Nat) (typed : String)
    (w : Setting φ σ) : Except Error Flow → Setting φ σ → Prop
  /-- It cannot be read, or asks for nothing that there is. -/
  | refused (e : Error) : Responded terminal files bound typed w (.error e) w
  /-- It is a line with a number, and has been typed in. -/
  | entered {line : Line} {n : LineNumber} (known : Line.ofText typed = .ok line)
      (numbered : line.number = some n) :
      Responded terminal files bound typed w ((w.session.enter typed).1.map fun _ => .proceed)
        { w with session := (w.session.enter typed).2 }
  /-- It is a command, and has been carried out. -/
  | commanded {command : Command} {result : Except Error Flow} {after : Setting φ σ}
      (asked : command.AskedBy typed)
      (done : (perform (terminal.withFiles φ) files bound command).outcome w = (result, after)) :
      Responded terminal files bound typed w result after

theorem responded {typed : String} {result : Except Error Flow}
    (done : (respond (terminal.withFiles φ) files bound typed).outcome w = (result, after)) :
    Responded terminal files bound typed w result after := by
  rw [respond, outcome_bind, outcome_call] at done
  cases known : Line.ofText typed with
  | error e =>
    rw [known] at done
    cases done
    exact .refused e
  | ok line =>
    rw [known] at done
    cases direct : line.isDirect with
    | true =>
      change outcome (if line.isDirect then _ else _) w = _ at done
      rw [if_pos direct, outcome_bind, outcome_call] at done
      cases read : Command.ofText typed with
      | error e =>
        rw [read] at done
        cases done
        exact .refused e
      | ok command =>
        rw [read] at done
        exact .commanded ⟨⟨line, known, direct⟩, read⟩ done
    | false =>
      obtain ⟨n, numbered⟩ : ∃ n, line.number = some n := by
        rw [← Option.isSome_iff_exists, ← Option.not_isNone, ← Line.isDirect, direct]
        rfl
      change outcome (if line.isDirect then _ else _) w = _ at done
      rw [if_neg (Bool.eq_false_iff.1 direct)] at done
      obtain ⟨first, entered, rfl⟩ := outcome_proceed done
      cases entered
      exact .entered known numbered

/-- Whatever is typed in harms nothing when it fails: program and files are as they were, and so are
the variables, unless the program was to be run. When it succeeds, the program has changed only at
the number of the line that was typed in, or because it was to be cleared or replaced, and files have
changed only because a program that is there was to be saved. -/
theorem respond_unharmed (steady : files.Steady) (terminal : Terminal (StateM (Host σ)))
    (bound : Nat) (typed : String) (w : Setting φ σ) :
    let response := (respond (terminal.withFiles φ) files bound typed).outcome w
    let after := response.2
    (∀ e, response.1 = .error e →
      after.session.program = w.session.program ∧ after.files = w.files ∧
      (Command.run.AskedBy typed ∨ Command.debug.AskedBy typed ∨
        after.session.memory.vars = w.session.memory.vars)) ∧
    (∀ flow, response.1 = .ok flow →
      (after.session.program = w.session.program ∨
        (∃ line n, Line.ofText typed = .ok line ∧ line.number = some n ∧
          ∀ k, k ≠ n → after.session.program.find? k = w.session.program.find? k) ∨
        Command.clear.AskedBy typed ∨ ∃ name, (Command.old name).AskedBy typed) ∧
      (after.files = w.files ∨
        (∃ name, (Command.save name).AskedBy typed) ∧ w.session.program.isEmpty = false)) := by
  intro response after
  have came : Responded terminal files bound typed w response.1 after :=
    responded (Prod.eta response).symm
  clear_value after response
  generalize response.1 = result at came ⊢
  cases came with
  | refused e => exact ⟨fun _ _ => ⟨rfl, rfl, .inr (.inr rfl)⟩, nofun⟩
  | entered known numbered =>
    refine ⟨fun e fails => ⟨?_, rfl, .inr (.inr (Session.vars_enter _ _))⟩, fun flow _ =>
      ⟨.inr (.inl ⟨_, _, known, numbered, fun k => Session.find?_enter_of_ne known numbered⟩), .inl rfl⟩⟩
    cases entered : (w.session.enter typed).1 with
    | error e => exact Session.program_enter_of_error entered
    | ok =>
      rw [entered] at fails
      cases fails
  | commanded asked done =>
    obtain ⟨failure, program, kept⟩ := careful steady done
    refine ⟨fun e fails => ?_, fun flow _ => ⟨?_, ?_⟩⟩
    · obtain ⟨same, spared, rfl | rfl | vars⟩ := failure e fails
      · exact ⟨same, spared, .inl asked⟩
      · exact ⟨same, spared, .inr (.inl asked)⟩
      · exact ⟨same, spared, .inr (.inr vars)⟩
    · rcases program with program | rfl | ⟨name, rfl⟩
      · exact .inl program
      · exact .inr (.inr (.inl asked))
      · exact .inr (.inr (.inr ⟨name, asked⟩))
    · rcases kept with kept | ⟨⟨name, rfl⟩, full⟩
      · exact .inl kept
      · exact .inr ⟨⟨name, asked⟩, full⟩

/-- A program is listed at a terminal that fails behind its first line. -/
theorem respond_unharmed_listing :
    let terminal : Terminal (StateM (Host Nat)) :=
      ⟨fun _ host => (if host.device = 0 then .error "closed" else .ok (),
        { host with device := host.device - 1 }), fun _ => pure .closed⟩
    let files : Files (StateT Disk (StateM (Host Nat))) := .onDisk id fun changed _ => changed
    let w : Setting Disk Nat :=
      ⟨(((Session.new .warning).enter "10 X = 1").2.enter "20 END").2, .empty, ⟨1, false⟩⟩
    let response := (respond (terminal.withFiles Disk) files 5 "LIST").outcome w
    files.Steady ∧ response.1 = .error (.io "closed") ∧
      response.2.session.program = w.session.program ∧ response.2.files = w.files := by
  intro terminal files w response
  have steady : files.Steady := Files.steady_onDisk
  have fails : response.1 = .error (.io "closed") := by decide +kernel
  obtain ⟨program, spared, _⟩ := (respond_unharmed steady terminal 5 "LIST" w).1 _ fails
  exact ⟨steady, fails, program, spared⟩

end Prompt

end LineBasic
