import LineBasic.Proofs.Statement.Execute
import LineBasic.Proofs.Statement.Grammar
import LineBasic.Token.Lexer

/-!
# Assignments as statements and as expressions

An assignment to a variable can be written in three ways: as a statement with `LET`, as a statement
without it, and as an expression. The same words, but for `LET`, make up all three, and carrying out
the statement comes to what evaluating the expression does.

Results:
1. `Expr.Derives.of_var`, `Expr.Derives.of_assign`: phrases that stand for a variable or for an
   assignment.
2. `Expr.ofTokens_assign_iff`, `Statement.ofTokens_assign_iff`, `Statement.ofTokens_let_iff`: the
   words of each of the three.
3. `Statement.outcome_assign`: carrying out an assignment evaluates it.
4. `Statement.assign_agrees`: the three ways agree.
-/

namespace LineBasic

/-! ## 1. Expressions that begin with a word -/

namespace Expr

variable {phrase : Phrase} {w : List Token} {x : String} {e target value : Expr}

/-- A variable is written as its name, or in parentheses. -/
theorem Derives.of_var (derived : Derives phrase w (.var x)) :
    w = [.word x] ∨ w.head? = some .leftParen := by
  generalize same : Expr.var x = e at derived
  induction derived with
  | sum _ ih | term _ ih | product _ ih | primary _ ih | lone _ ih => exact ih same
  | word =>
    cases same
    exact .inl rfl
  | parens => exact .inr rfl
  | _ => cases same

/-- An assignment is written with an equals sign between two phrases, or in parentheses. -/
theorem Derives.of_assign (derived : Derives phrase w (.assign target value)) :
    (∃ u v, w = u ++ .operator .equal :: v ∧ Derives .sum u target ∧
      Derives .assignment v value) ∨ w.head? = some .leftParen := by
  generalize same : Expr.assign target value = e at derived
  induction derived with
  | sum _ ih | term _ ih | product _ ih | primary _ ih | lone _ ih => exact ih same
  | @assign w v _ _ left right =>
    cases same
    exact .inl ⟨w, v, rfl, left, right⟩
  | parens => exact .inr rfl
  | _ => cases same

/-- An assignment that begins with a word assigns to it. -/
theorem derives_assign_iff {behind : List Token} :
    Derives .assignment (.word x :: behind) (.assign (.var x) e) ↔
      ∃ v, behind = .operator .equal :: v ∧ Derives .assignment v e := by
  constructor
  · intro derived
    rcases derived.of_assign with ⟨u, v, whole, left, right⟩ | paren
    · rcases left.of_var with rfl | paren
      · exact ⟨v, (List.cons.inj whole).2, right⟩
      · obtain ⟨u, rfl⟩ := List.head?_eq_some_iff.1 paren
        cases whole
    · cases paren
  · rintro ⟨v, rfl, derived⟩
    exact .assign (w := [.word x]) (.term (.product (.primary .word))) derived

/-- The tokens of an assignment as an expression. -/
theorem ofTokens_assign_iff {ts : List Token} (first : (Token.solid ts).head? = some (.word x)) :
    ofTokens ts = .ok (.assign (.var x) e) ↔
      ∃ v, Token.solid ts = .word x :: .operator .equal :: v ∧ Derives .assignment v e := by
  obtain ⟨behind, words⟩ := List.head?_eq_some_iff.1 first
  rw [ofTokens_eq_read, Reader.read_eq_ok_iff, words]
  refine assignment_eq_ok_iff.trans (derives_assign_iff.trans (exists_congr fun v => ?_))
  rw [List.cons.injEq, eq_self, true_and]

/-- An assignment to a variable evaluates its right side, and gives the variable that value. -/
theorem run_eval_assign (x : String) (e : Expr) (vars : Variables) :
    (assign (var x) e).eval.run vars =
      match e.eval.run vars with
      | .ok value vars => .ok value (vars.insert x value)
      | .error err vars => .error err vars := by
  simp only [eval, EStateM.run, bind, EStateM.bind]
  cases e.eval vars <;> rfl

end Expr

namespace Statement

variable {ts : List Token} {x word : String} {e : Expr} {line : Option LineNumber}

/-! ## 2. Statements that assign -/

/-- The tokens of an assignment without `LET`. -/
theorem ofTokens_assign_iff (first : (Token.solid ts).head? = some (.word x))
    (plain : ∀ keyword, ¬ Keyword.Spells x keyword) :
    ofTokens line ts = .ok (.assign x e) ↔
      ∃ v, Token.solid ts = .word x :: .operator .equal :: v ∧
        Expr.Derives .assignment v e := by
  obtain ⟨behind, words⟩ := List.head?_eq_some_iff.1 first
  rw [ofTokens_eq_ok_iff, words]
  constructor
  · intro derived
    cases derived with
    | assign spells => exact absurd spells (plain .let)
    | implicit _ derived => exact ⟨_, rfl, derived⟩
  · rintro ⟨v, same, derived⟩
    rw [same]
    exact .implicit plain derived

/-- The tokens of an assignment behind `LET`. -/
theorem ofTokens_let_iff (spells : Keyword.Spells word .let) :
    ofTokens line (.word word :: ts) = .ok (.assign x e) ↔
      ∃ v, Token.solid ts = .word x :: .operator .equal :: v ∧
        Expr.Derives .assignment v e := by
  have words : Token.solid (.word word :: ts) = .word word :: Token.solid ts := rfl
  rw [ofTokens_eq_ok_iff, words]
  constructor
  · intro derived
    generalize Token.solid ts = behind at derived
    cases derived with
    | assign _ derived => exact ⟨_, rfl, derived⟩
    | implicit plain => exact absurd spells (plain .let)
  · rintro ⟨v, same, derived⟩
    rw [same]
    exact .assign spells derived

/-! ## 3. Carrying out an assignment -/

/-- Carrying out an assignment evaluates it as an expression, and goes on at the next line if that
succeeds. -/
theorem outcome_assign {σ : Type} (x : String) (e : Expr) (dev : Device (StateM (Host σ)))
    (w : World σ) :
    ((assign x e).execute dev.journaled).outcome w =
      match (Expr.assign (.var x) e).eval.run w.memory.vars with
      | .ok _ vars =>
        (.ok (), (w.setVars vars).setMemory ((w.setVars vars).memory.setTransfer .next))
      | .error err vars => (.error err, w.setVars vars) := by
  rw [outcome_execute, Expr.run_eval_assign, outcome_perform_assign]
  cases e.eval.run w.memory.vars <;> rfl

/-- The three ways to write an assignment agree. Tokens that begin with a word that is no keyword
make up an assignment to it as a statement just if they make up the same assignment as an
expression, and just if they do as a statement behind `LET`. And carrying out the statement fails
just if evaluating the expression does, with the same error, and leaves the same variables behind
either way. -/
theorem assign_agrees :
    (∀ (line : Option LineNumber) (ts : List Token) (x : String) (e : Expr),
      (Token.solid ts).head? = some (.word x) → (∀ keyword, ¬ Keyword.Spells x keyword) →
      (ofTokens line ts = .ok (assign x e) ↔ Expr.ofTokens ts = .ok (.assign (.var x) e)) ∧
      ∀ word, Keyword.Spells word .let →
        (ofTokens line (.word word :: ts) = .ok (assign x e) ↔
          Expr.ofTokens ts = .ok (.assign (.var x) e))) ∧
    ∀ (σ : Type) (x : String) (e : Expr) (dev : Device (StateM (Host σ))) (w : World σ),
      let executed := ((assign x e).execute dev.journaled).outcome w
      let evaluated := w.memory.eval (Expr.assign (.var x) e).eval
      (∀ err, executed.1 = .error err ↔ evaluated.1 = .error err) ∧
        executed.2.memory.vars = evaluated.2.vars := by
  refine ⟨fun line ts x e first plain => ?_, fun σ x e dev w => ?_⟩
  · have expression := Expr.ofTokens_assign_iff (e := e) first
    exact ⟨(ofTokens_assign_iff first plain).trans expression.symm,
      fun word spells => (ofTokens_let_iff spells).trans expression.symm⟩
  · rw [outcome_assign, Memory.eval]
    cases (Expr.assign (.var x) e).eval.run w.memory.vars with
    | ok value vars => exact ⟨fun err => by simp only [reduceCtorEq], rfl⟩
    | error e vars => exact ⟨fun err => by rw [Except.error.injEq, Except.error.injEq], rfl⟩

/-- A chained assignment is read alike behind `Let` and without it. One that comes to a variable
without a value keeps what it has assigned before. -/
theorem assign_agrees_chained :
    let ts := Token.ofText " X = Y = 2"
    let e := Expr.assign (.var "Y") (.constant 2)
    let dev : Device (StateM (Host Unit)) :=
      ⟨fun _ => pure (.ok ()), fun _ => pure (.ok ""), fun _ => pure (.ok true),
        fun _ => pure (.ok ())⟩
    let w : World Unit := ⟨.new .warning, [], ⟨(), false⟩⟩
    let failing := Expr.arith .add e (.var "Z")
    Expr.ofTokens ts = .ok (.assign (.var "X") e) ∧ ofTokens none ts = .ok (assign "X" e) ∧
      ofTokens none (.word "Let" :: ts) = .ok (assign "X" e) ∧
      (((assign "X" failing).execute dev.journaled).outcome w).1 =
        .error (.undefinedVariable "Z") ∧
      (((assign "X" failing).execute dev.journaled).outcome w).2.memory.vars =
        (Memory.new .warning |>.setValue "Y" 2).vars := by
  intro ts e dev w failing
  have read : Expr.ofTokens ts = .ok (.assign (.var "X") e) := by decide +kernel
  have first : (Token.solid ts).head? = some (.word "X") := by decide +kernel
  have plain := Keyword.ofWord?_eq_none_iff.1 (by decide +kernel : Keyword.ofWord? "X" = none)
  have spells := Keyword.ofWord?_eq_some_iff.1
    (by decide +kernel : Keyword.ofWord? "Let" = some .let)
  obtain ⟨agree, carriedOut⟩ := assign_agrees
  obtain ⟨implicit, explicit⟩ := agree none ts "X" e first plain
  obtain ⟨fails, vars⟩ := carriedOut Unit "X" failing dev w
  have evaluated : (w.memory.eval (Expr.assign (.var "X") failing).eval).1 =
    .error (.undefinedVariable "Z") := by decide +kernel
  have left : (w.memory.eval (Expr.assign (.var "X") failing).eval).2.vars =
    (Memory.new .warning |>.setValue "Y" 2).vars := by decide +kernel
  exact ⟨read, implicit.2 read, (explicit "Let" spells).2 read, (fails _).2 evaluated,
    vars.trans left⟩

end Statement

end LineBasic
