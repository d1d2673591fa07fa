import LineBasic.Proofs.Program

/-!
# Saving and loading

A program is saved as the texts of its lines. When the file is loaded each of them says again what
was stored (`Entry.Typed.again`), so the program comes back with its statements. The one thing that
can go wrong is a line feed inside a stored text, in a remark or in a literal: in the file it ends
the line.

Results:
1. `load_toFile_of_oneLined`: a program without such texts comes back.
2. `oneLined_of_load`: a program that was loaded has no such texts.
3. `load_toFile_iff`: so a program comes back exactly if it has none.
-/

namespace LineBasic

namespace Program

/-- No stored text holds a line feed. -/
def OneLined (program : Program) : Prop :=
  ∀ number entry, program.find? number = some entry → '\n' ∉ entry.text.toList

/-- A text that is typed in holds no line feed but in line ends behind it. -/
def TypedInOneLine (s : String) : Prop := '\n' ∉ Text.dropTrailing Text.isLineEnd s.toList

variable {kind : String → Prop} {program : Program}

/-! ## What is in the file -/

/-- The lines of the file are the stored texts. -/
theorem splitLines_toFile (holds : program.Holds kind) (oneLined : program.OneLined) :
    (Text.splitLines program.toFile.toList).map String.ofList =
      program.toList.map fun entry => entry.2.text := by
  have plain : ∀ text ∈ program.lines.map fun line => line.2.toList,
      '\n' ∉ text ∧ text.getLast? ≠ some '\r' := by
    intro text mem
    simp only [lines, List.map_map, List.mem_map, Function.comp_apply] at mem
    obtain ⟨⟨number, entry⟩, stored, rfl⟩ := mem
    have found : program.find? number = some entry := (SortedMap.find?_eq_some_iff _).2 stored
    obtain ⟨s, _, line, _, known, _, _, _, rfl⟩ := holds number entry found
    -- A carriage return at the end would have been trimmed.
    exact ⟨oneLined number _ found, fun last => absurd (Line.last_text known last) (by decide)⟩
  rw [toFile, String.toList_ofList, Text.splitLines_unlines plain]
  simp [lines, Function.comp_def]

/-- Lines that say what they were stored from are taken in one after the other. -/
theorem ofLines_texts {entries : List (LineNumber × Entry)}
    (typed : ∀ entry ∈ entries, entry.2.Typed entry.1 entry.2.text) (program : Program)
    (fileLine : Nat) :
    let reading := FileReading.ofLines program fileLine (entries.map fun entry => entry.2.text)
    reading.error = none ∧
      reading.program = entries.foldl (fun map entry => map.insert entry.1 entry.2) program := by
  induction entries generalizing program fileLine with
  | nil => exact ⟨rfl, rfl⟩
  | cons entry rest ih =>
    obtain ⟨line, statement, known, numbered, full, readable, stored⟩ :=
      typed entry List.mem_cons_self
    have visible : Text.isBlankLine entry.2.text = false :=
      Line.isBlankLine_eq_false known numbered
    have notDirect : line.isDirect = false := by simp [Line.isDirect, numbered]
    have taken : program.insertLine line = (.ok (), program.insert entry.1 entry.2) := by
      rw [stored]
      exact insertLine_of_statement numbered full readable
    simp only [List.map_cons, List.foldl_cons, FileReading.ofLines, visible, known, notDirect, taken,
      Bool.false_eq_true, if_false]
    exact ih (fun entry mem => typed entry (List.mem_cons_of_mem _ mem)) _ _

theorem load_toFile_of_oneLined (holds : program.Holds kind) (oneLined : program.OneLined)
    (other : Program) : other.load program.toFile = (.ok (), program) := by
  have typed : ∀ entry ∈ program.toList, entry.2.Typed entry.1 entry.2.text := by
    intro entry stored
    obtain ⟨_, _, typed⟩ := holds entry.1 entry.2 ((SortedMap.find?_eq_some_iff _).2 stored)
    exact typed.again
  obtain ⟨noError, filled⟩ := ofLines_texts typed .empty 1
  rw [SortedMap.foldl_insert_toList] at filled
  simp only [load, FileReading.ofText, splitLines_toFile holds oneLined, noError, filled]

/-! ## Programs without line feeds -/

theorem Holds.oneLined (holds : program.Holds kind) (plain : ∀ s, kind s → TypedInOneLine s) :
    program.OneLined := by
  intro number entry found feed
  obtain ⟨s, allowed, line, _, known, _, _, _, rfl⟩ := holds number entry found
  exact plain s allowed (Line.mem_of_mem_text known feed)

theorem typedInOneLine_of_noFeed {s : String} (noFeed : '\n' ∉ s.toList) : TypedInOneLine s :=
  fun mem => noFeed (Text.isPrefix_dropTrailing.subset mem)

theorem oneLined_of_load {before : Program} {s : String}
    (loaded : before.load s = (.ok (), program)) : program.OneLined := by
  rw [load] at loaded
  split at loaded
  · cases loaded
    exact (Holds.ofText s).oneLined fun _ => typedInOneLine_of_noFeed
  · cases loaded

/-! ## The file is as good as the program -/

/-- A program that came about in any way is what its file is loaded as, by any program, exactly if
no stored text holds a line feed. So it is if it was loaded itself, and if every line was typed in
without a line feed but at its end. -/
theorem load_toFile_iff (reachable : program.Reachable fun _ => True) :
    (∀ other : Program, other.load program.toFile = (.ok (), program) ↔ program.OneLined) ∧
    ((∃ (before : Program) (s : String), before.load s = (.ok (), program)) ∨
        program.Reachable TypedInOneLine →
      ∀ other : Program, other.load program.toFile = (.ok (), program)) := by
  have holds := reachable.holds fun _ _ => trivial
  have comesBack := load_toFile_of_oneLined holds
  refine ⟨fun other => ⟨oneLined_of_load, fun oneLined => comesBack oneLined other⟩, ?_⟩
  rintro (⟨before, s, loaded⟩ | plain)
  · exact comesBack (oneLined_of_load loaded)
  · exact comesBack ((plain.holds fun _ => typedInOneLine_of_noFeed).oneLined fun _ => id)

/-- A remark that goes on behind a line feed does not come back; a line end behind it is no harm. -/
theorem load_toFile_remark :
    (∃ line, Line.ofText "10 REM a\nb" = .ok line ∧ ∀ other : Program,
      other.load (insertLine .empty line).2.toFile ≠ (.ok (), (insertLine .empty line).2)) ∧
    (∃ line, Line.ofText "10 REM ab\r\n" = .ok line ∧ ∀ other : Program,
      other.load (insertLine .empty line).2.toFile = (.ok (), (insertLine .empty line).2)) := by
  constructor
  · have known : Line.ofText "10 REM a\nb" =
        .ok ⟨some 10, [.word "REM", .blank 1, .remark "a\nb"], "10 REM a\nb"⟩ := by cbv
    refine ⟨_, known, fun other loaded => ?_⟩
    have oneLined := ((load_toFile_iff (.insert .empty trivial known)).1 other).1 loaded
    exact oneLined 10 ⟨"10 REM a\nb", some (.remark "a\nb")⟩ (by cbv) (by decide)
  · have known : Line.ofText "10 REM ab\r\n" =
        .ok ⟨some 10, [.word "REM", .blank 1, .remark "ab"], "10 REM ab"⟩ := by cbv
    have typed : TypedInOneLine "10 REM ab\r\n" := by
      unfold TypedInOneLine
      decide
    refine ⟨_, known, ?_⟩
    exact (load_toFile_iff (.insert .empty trivial known)).2 (.inr (.insert .empty typed known))

end Program

end LineBasic
