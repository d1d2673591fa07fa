import LineBasic.Proofs.Command
import LineBasic.Proofs.Program.Traversal
import LineBasic.Proofs.Prompt

/-!
# What a listing shows

A typed text that asks for some lines has them written to the terminal, one at a time and in order,
up to the first that cannot be written. What becomes of writing some texts is said of the writes
alone, whatever the terminal is (`Terminal.Writes`): either all of them succeed, or one fails and
none is tried behind it.

Results:
1. `exists_writes`, `Writes.printAll_eq`: one of these comes about, and printing leaves it behind.
2. `Selection.exists_numbers`: the stored lines that are asked for.
3. `respond_of_asked`: a text that asks for a command has it carried out.
4. `listed_respond`: what a listing writes, and that it changes nothing.
-/

namespace LineBasic

variable {φ σ : Type}

/-! ## 1. Texts on a terminal -/

namespace Terminal

/-- A terminal writes some texts, one after the other, and fails at none. -/
inductive Wrote (terminal : Terminal (StateM (Host σ))) : List String → Host σ → Host σ → Prop
  | nil (host : Host σ) : Wrote terminal [] host host
  | cons {s : String} {rest : List String} {host between after : Host σ} :
      terminal.write s host = (.ok (), between) → Wrote terminal rest between after →
      Wrote terminal (s :: rest) host after

/-- What becomes of writing some texts one after the other. -/
inductive Writes (terminal : Terminal (StateM (Host σ))) (texts : List String) (host : Host σ) :
    Except Error Unit → Host σ → Prop
  /-- All of them are written. -/
  | all {after : Host σ} : Wrote terminal texts host after →
      Writes terminal texts host (.ok ()) after
  /-- One of them fails. Those before it have been written, and it is the last that is tried. -/
  | upTo {k : Nat} {s reason : String} {between after : Host σ} :
      Wrote terminal (texts.take k) host between → texts[k]? = some s →
      terminal.write s between = (.error reason, after) →
      Writes terminal texts host (.error (.io reason)) after

variable {terminal : Terminal (StateM (Host σ))} {texts : List String}
  {host between after : Host σ}

/-- All of some texts are written, or one of them fails. -/
theorem exists_writes (terminal : Terminal (StateM (Host σ))) (texts : List String)
    (host : Host σ) : ∃ result after, terminal.Writes texts host result after := by
  induction texts generalizing host with
  | nil => exact ⟨_, _, .all (.nil host)⟩
  | cons s rest ih =>
    cases written : terminal.write s host with
    | mk answer between =>
      cases answer with
      | error reason => exact ⟨_, _, .upTo (k := 0) (.nil host) rfl written⟩
      | ok =>
        obtain ⟨_, _, writes⟩ := ih between
        cases writes with
        | all wrote => exact ⟨_, _, .all (.cons written wrote)⟩
        | @upTo k _ _ _ _ wrote next fails =>
          exact ⟨_, _, .upTo (k := k + 1) (.cons written wrote) next fails⟩

/-- What has been written is done with. -/
theorem Wrote.printAll_append {front : List String} (wrote : terminal.Wrote front host between)
    (back : List String) (files : φ) :
    (terminal.withFiles φ).printAll (front ++ back) files host =
      (terminal.withFiles φ).printAll back files between := by
  induction wrote with
  | nil => rfl
  | @cons s rest host between after written _ ih =>
    rw [← ih]
    simp only [List.cons_append, printAll, print, withFiles, bind, StateT.bind, StateT.lift,
      written]
    rfl

theorem printAll_cons_of_error {s reason : String} (rest : List String)
    (fails : terminal.write s host = (.error reason, after)) (files : φ) :
    (terminal.withFiles φ).printAll (s :: rest) files host =
      ((.error (.io reason), files), after) := by
  simp only [printAll, print, withFiles, bind, StateT.bind, StateT.lift, fails]
  rfl

/-- Some texts are printed as they are written. -/
theorem Writes.printAll_eq {result : Except Error Unit}
    (writes : terminal.Writes texts host result after) (files : φ) :
    (terminal.withFiles φ).printAll texts files host = ((result, files), after) := by
  cases writes with
  | all wrote =>
    have printed := wrote.printAll_append [] files
    rw [List.append_nil] at printed
    exact printed
  | @upTo k s reason between _ wrote next fails =>
    -- The texts are those written, the one that fails, and those that are not tried.
    obtain ⟨inside, rfl⟩ := List.getElem?_eq_some_iff.1 next
    have split : texts = texts.take k ++ texts[k] :: texts.drop (k + 1) := by
      rw [← List.drop_eq_getElem_cons inside, List.take_append_drop]
    rw [split, wrote.printAll_append, printAll_cons_of_error _ fails]

end Terminal

/-! ## 2. The lines that are asked for -/

/-- Only line numbers within range are stored. -/
theorem Session.Reachable.number_range {session : Session} (reachable : Reachable session)
    {n : LineNumber} (stored : session.program.contains n = true) :
    1 ≤ n ∧ n ≤ LineNumber.max := by
  obtain ⟨entry, mem⟩ := Program.contains_iff.1 stored
  have found := (SortedMap.find?_eq_some_iff _).2 mem
  have holds := reachable.program.holds fun _ _ => trivial
  obtain ⟨_, -, line, _, known, numbered, _⟩ := holds n entry found
  exact Line.number_range known numbered

/-- The lines in the range of a selection are those that are asked for, in order. -/
theorem Selection.exists_numbers (selection : Selection) {session : Session}
    (reachable : session.Reachable) :
    ∃ numbers : List LineNumber, numbers.Pairwise (· < ·) ∧
      (∀ n, n ∈ numbers ↔ session.program.contains n = true ∧ selection.Holds n) ∧
      session.program.between selection.bounds.1 selection.bounds.2 =
        numbers.map session.program.text := by
  refine ⟨_, session.program.keys_increasing.filter _, fun n => ?_, session.program.between_eq _ _⟩
  rw [List.mem_filter, Program.mem_keys_iff, decide_eq_true_iff]
  refine and_congr_right fun stored => ?_
  obtain ⟨positive, fits⟩ := reachable.number_range stored
  exact (holds_iff positive fits).symm

namespace Prompt

/-! ## 3. Commands -/

variable {w : Setting φ σ} {typed : String}

/-- A text that asks for a command has it carried out. -/
theorem respond_of_asked {command : Command} (asked : command.AskedBy typed)
    (terminal : Terminal (StateM (Host σ))) (files : Files (StateT φ (StateM (Host σ))))
    (bound : Nat) (w : Setting φ σ) :
    (respond (terminal.withFiles φ) files bound typed).outcome w =
      (perform (terminal.withFiles φ) files bound command).outcome w := by
  obtain ⟨⟨line, known, direct⟩, read⟩ := asked
  rw [respond, outcome_bind, outcome_call, known]
  change outcome (if line.isDirect then _ else _) w = _
  rw [if_pos direct, outcome_bind, outcome_call, read]
  rfl

/-- A listing leaves behind what printing its lines does. -/
theorem outcome_list {first last : LineNumber} {result : Except Error Unit} {host : Host σ}
    {terminal : Terminal (StateM (Host σ))} {files : Files (StateT φ (StateM (Host σ)))}
    (writes : terminal.Writes ((w.session.program.between first last).map (· ++ "\n")) w.host
      result host) (bound : Nat) :
    (perform (terminal.withFiles φ) files bound (.list first last)).outcome w =
      (result.map fun _ => .proceed, { w with host }) := by
  rw [perform, outcome_bind, outcome_call, writes.printAll_eq]
  cases result <;> rfl

/-! ## 4. Listings -/

/-- A text that asks for some lines has all that are stored of them written, each once and with a
line end of its own, in the order of their numbers; a range that ends before it begins holds none.
If one cannot be written, those before it have been, and the failure is the error. Nothing but the
terminal has changed, whether it fails or not. -/
theorem listed_respond {selection : Selection} (asked : selection.AskedBy typed)
    (short : (Text.trimEnd typed.toList).length ≤ 1024) (reachable : w.session.Reachable)
    (terminal : Terminal (StateM (Host σ))) (files : Files (StateT φ (StateM (Host σ))))
    (bound : Nat) :
    ∃ numbers : List LineNumber, numbers.Pairwise (· < ·) ∧
      (∀ n, n ∈ numbers ↔ w.session.program.contains n = true ∧ selection.Holds n) ∧
      (∀ first last, selection = .between first last → last < first → numbers = []) ∧
      let texts := numbers.map fun n => w.session.program.text n ++ "\n"
      (∃ result host, terminal.Writes texts w.host result host) ∧
      ∀ result host, terminal.Writes texts w.host result host →
        (respond (terminal.withFiles φ) files bound typed).outcome w =
          (result.map fun _ => .proceed, { w with host }) := by
  have command : (Command.list selection.bounds.1 selection.bounds.2).AskedBy typed :=
    ⟨Selection.isDirect_of_asked asked short, Selection.ofText_of_asked asked⟩
  obtain ⟨numbers, increasing, members, listed⟩ := selection.exists_numbers reachable
  refine ⟨numbers, increasing, members, ?_, terminal.exists_writes _ _, ?_⟩
  · rintro first last rfl backwards
    refine List.eq_nil_iff_forall_not_mem.2 fun n mem => ?_
    obtain ⟨_, above, below⟩ := (members n).1 mem
    exact Nat.not_le_of_lt backwards (Nat.le_trans above below)
  · intro result host writes
    rw [respond_of_asked command]
    refine outcome_list ?_ bound
    rw [listed, List.map_map]
    exact writes

/-- Two of three lines are asked for, at a terminal that fails behind the first of them. -/
theorem listed_respond_closing :
    let terminal : Terminal (StateM (Host (List String))) :=
      ⟨fun s host => if host.device = [] then (.ok (), { host with device := [s] })
        else (.error "closed", host), fun _ => pure .closed⟩
    let files : Files (StateT Disk (StateM (Host (List String)))) :=
      .onDisk id fun changed _ => changed
    let session := ((Session.new .warning).load "30 END\n10 X = 1\n20 PRINT X\n").2
    let w : Setting Disk (List String) := ⟨session, .empty, ⟨[], false⟩⟩
    let typed := " lisT\t010 - 20 "
    (Selection.between 10 20).AskedBy typed ∧ (Text.trimEnd typed.toList).length ≤ 1024 ∧
      w.session.Reachable ∧
      (respond (terminal.withFiles Disk) files 5 typed).outcome w =
        (.error (.io "closed"), { w with host := ⟨["10 X = 1\n"], false⟩ }) := by
  intro terminal files session w typed
  have first : (Token.number "010").Numbers 10 := Token.lineNumber_eq_ok_iff.1 (by decide)
  have last : (Token.number "20").Numbers 20 := Token.lineNumber_eq_ok_iff.1 (by decide)
  have spaced : Spaced [.number "010", .operator .minus, .number "20"] "\t010 - 20 ".toList :=
    .blank rfl (.word (.number "010") (.blank rfl (.word (.operator .minus) (.blank rfl
      (.word (.number "20") (.blank rfl .nil))))))
  have whole : typed.toList = [' '] ++ ("lisT".toList ++ "\t010 - 20 ".toList) := by decide
  have asked : (Selection.between 10 20).AskedBy typed :=
    .intro whole (List.forall_mem_singleton.2 rfl) (by decide) (.between first last) spaced
      fun _ next => Option.some.inj next ▸ rfl
  have short : (Text.trimEnd typed.toList).length ≤ 1024 := by decide
  have reachable : w.session.Reachable := .load _ (.new _)
  obtain ⟨numbers, increasing, members, -, -, response⟩ :=
    listed_respond asked short reachable terminal files 5
  have keys : session.program.keys = [10, 20, 30] := by decide +kernel
  have within (n : Nat) : (n = 10 ∨ n = 20 ∨ n = 30) ∧ 10 ≤ n ∧ n ≤ 20 ↔ n = 10 ∨ n = 20 := by
    omega
  have two : numbers = [10, 20] := by
    refine increasing.eq_of_mem_iff (by decide) fun n => ?_
    rw [members, ← Program.mem_keys_iff, keys, Selection.Holds]
    simpa only [List.mem_cons, List.not_mem_nil, or_false] using within n
  subst two
  have texts : [10, 20].map (fun n => session.program.text n ++ "\n") =
      ["10 X = 1\n", "20 PRINT X\n"] := by decide +kernel
  have fails : terminal.Writes ["10 X = 1\n", "20 PRINT X\n"] w.host (.error (.io "closed"))
      ⟨["10 X = 1\n"], false⟩ := .upTo (k := 1) (.cons rfl (.nil _)) rfl rfl
  rw [texts] at response
  exact ⟨asked, short, reachable, response _ _ fails⟩

end Prompt

end LineBasic
