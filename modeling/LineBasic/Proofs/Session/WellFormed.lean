import LineBasic.Proofs.Line.Split
import LineBasic.Proofs.Program.Order
import LineBasic.Proofs.Session
import LineBasic.Proofs.Statement.WellFormed

/-!
# What is stored is well formed

A text is read as a statement only if all that the statement holds can be written down: the lexer
makes names and literals of nothing else, constants are checked when they are read, and so are line
numbers. The statement of a stored line has been read from the text behind the number, so it is no
different.

Results:
1. `Entry.Typed.wellFormed`: the statement of an entry that holds what a text says.
2. `stored_wellFormed`: whatever is accepted, and whatever is stored, is well formed.
-/

namespace LineBasic

/-- An entry that holds what a text says holds a well-formed statement. -/
theorem Entry.Typed.wellFormed {entry : Entry} {n : LineNumber} {s : String} {statement : Statement}
    (typed : entry.Typed n s) (attached : entry.statement = some statement) :
    statement.WellFormed := by
  obtain ⟨line, found, known, _, _, readable, rfl⟩ := typed
  obtain rfl := Option.some.inj attached
  obtain ⟨rest, statement⟩ := Line.exists_statement known
  rw [statement] at readable
  exact Statement.wellFormed_of_ofText readable

namespace Session

/-- Every statement that is accepted from a text is well formed, and so is every statement of a
stored line, however the lines came in: constants are finite and without a sign, names are letters
and digits behind a letter, targets are line numbers, `PRINT` has something to print and no quote in
its literal, and a remark begins with no blank and ends in no white space. -/
theorem stored_wellFormed :
    (∀ line s statement, Statement.ofTokens line (Token.ofText s) = .ok statement →
      statement.WellFormed) ∧
    (∀ session, Reachable session → ∀ n statement, session.program.statement n = .ok statement →
      statement.WellFormed) := by
  refine ⟨fun line s statement => Statement.wellFormed_of_ofText, ?_⟩
  intro session reachable n statement stored
  obtain ⟨entry, mem, attached⟩ := Program.statement_eq_ok_iff.1 stored
  have found := (SortedMap.find?_eq_some_iff _).2 mem
  obtain ⟨s, -, typed⟩ := reachable.program.holds (fun _ _ => trivial) n entry found
  exact typed.wellFormed attached

/-- A branch that was loaded, and a remark with a tab in front and a no-break space at the end. -/
theorem stored_wellFormed_loaded :
    let session := ((Session.new .warning).load "10 if .5 < x then 010\n20 rem\t it's \u00a0\n").2
    Reachable session ∧
      session.program.statement 10 = .ok (.branch (.constant 0.5) .less (.var "x") 10) ∧
      (Statement.branch (.constant 0.5) .less (.var "x") 10).WellFormed ∧
      session.program.statement 20 = .ok (.remark "it's") ∧
      (Statement.remark "it's").WellFormed := by
  intro session
  have reachable : Reachable session := .load _ (.new _)
  have branch : session.program.statement 10 =
      .ok (.branch (.constant 0.5) .less (.var "x") 10) := by decide +kernel
  have remark : session.program.statement 20 = .ok (.remark "it's") := by decide +kernel
  have wellFormed := stored_wellFormed.2 session reachable
  exact ⟨reachable, branch, wellFormed 10 _ branch, remark, wellFormed 20 _ remark⟩

end Session

end LineBasic
