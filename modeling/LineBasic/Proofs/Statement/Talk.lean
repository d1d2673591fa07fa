import LineBasic.Proofs.Statement.Execute

/-!
# What statements say

Only `PRINT` and `INPUT` call on the device, and they call once. `PRINT` does so when all its values
have been evaluated, one after the other, and says all of them at once; `INPUT` asks before it does
anything else, and changes its variable only if it can read the reply.

Results:
1. `Expr.evaluated_of_mapM`, `Expr.broken_of_mapM`: values one after the other.
2. `Statement.utters`: what a statement says, and what it leaves behind.
-/

namespace LineBasic

/-! ## 1. Values one after the other -/

namespace Expr

/-- Expressions have been evaluated from left to right, each on the variables that the one before it
has left behind. -/
inductive Evaluated : List Expr → Variables → List Number → Variables → Prop
  | nil (vars : Variables) : Evaluated [] vars [] vars
  | cons {x : Expr} {xs : List Expr} {number : Number} {numbers : List Number}
      {vars between after : Variables} (first : x.eval.run vars = .ok number between)
      (others : Evaluated xs between numbers after) :
      Evaluated (x :: xs) vars (number :: numbers) after

/-- One of some expressions fails, when those to its left have been evaluated. -/
inductive Broken : List Expr → Variables → Error → Variables → Prop
  | here {x : Expr} {xs : List Expr} {e : Error} {vars after : Variables}
      (fails : x.eval.run vars = .error e after) : Broken (x :: xs) vars e after
  | later {x : Expr} {xs : List Expr} {number : Number} {e : Error}
      {vars between after : Variables} (first : x.eval.run vars = .ok number between)
      (others : Broken xs between e after) : Broken (x :: xs) vars e after

variable {values : List Expr} {vars after after' : Variables} {numbers : List Number} {e : Error}

/-- If one of the expressions fails, they are not all evaluated. -/
theorem Broken.not_evaluated (broken : Broken values vars e after) :
    ¬ Evaluated values vars numbers after' := by
  induction broken generalizing numbers with
  | here fails =>
    rintro ⟨⟩
    next first _ => cases fails.symm.trans first
  | later first _ ih =>
    rintro ⟨⟩
    next first' others =>
      cases first.symm.trans first'
      exact ih others

theorem run_mapM_cons (x : Expr) (xs : List Expr) (vars : Variables) :
    ((x :: xs).mapM eval).run vars =
      match x.eval.run vars with
      | .ok number between =>
        match (xs.mapM eval).run between with
        | .ok numbers after => .ok (number :: numbers) after
        | .error e after => .error e after
      | .error e after => .error e after := by
  rw [List.mapM_cons, EStateM.run_bind]
  cases x.eval.run vars with
  | error e after => rfl
  | ok number between =>
    simp only [EStateM.run_bind]
    cases (xs.mapM eval).run between <;> rfl

theorem evaluated_of_mapM (done : (values.mapM eval).run vars = .ok numbers after) :
    Evaluated values vars numbers after := by
  induction values generalizing vars numbers with
  | nil =>
    cases done
    exact .nil _
  | cons x xs ih =>
    rw [run_mapM_cons] at done
    cases first : x.eval.run vars with
    | error e after =>
      rw [first] at done
      cases done
    | ok number between =>
      rw [first] at done
      cases others : (xs.mapM eval).run between with
      | error e after =>
        simp only [others] at done
        cases done
      | ok rest after =>
        simp only [others] at done
        cases done
        exact .cons first (ih others)

theorem broken_of_mapM (failed : (values.mapM eval).run vars = .error e after) :
    Broken values vars e after := by
  induction values generalizing vars with
  | nil => cases failed
  | cons x xs ih =>
    rw [run_mapM_cons] at failed
    cases first : x.eval.run vars with
    | error e' after' =>
      rw [first] at failed
      cases failed
      exact .here first
    | ok number between =>
      rw [first] at failed
      cases others : (xs.mapM eval).run between with
      | error e' after' =>
        simp only [others] at failed
        cases failed
        exact .later first (ih others)
      | ok rest after' =>
        simp only [others] at failed
        cases failed

end Expr

/-! ## 2. Statements -/

namespace Statement

/-- The kinds of statements that call on the device. -/
def speaks : Statement → Bool
  | print .. | input _ => true
  | remark _ | assign .. | jump _ | branch .. | stop => false

/-- What a statement says to the device, from given variables on, how it comes out, and the
variables behind it. -/
inductive Utters : Statement → Variables → Option Call → Except Error Transfer → Variables → Prop
  /-- `PRINT` says its literal and its values, and does what the device lets it. -/
  | printed {literal : Option String} {values : List Expr} {numbers : List Number}
      {vars after : Variables} (evaluated : Expr.Evaluated values vars numbers after)
      (answer : Except Error Unit) :
      Utters (.print literal values) vars
        (some (.printed
          (String.intercalate " " (literal.toList ++ numbers.map Number.format) ++ "\n") answer))
        (answer.map fun _ => .next) after
  /-- `PRINT` says nothing if one of its values fails. -/
  | unprinted {literal : Option String} {values : List Expr} {vars after : Variables} {e : Error}
      (broken : Expr.Broken values vars e after) :
      Utters (.print literal values) vars none (.error e) after
  /-- `INPUT` gives its variable the number in the reply. -/
  | answered {name reply : String} {value : Number} (vars : Variables)
      (readable : Number.read reply = some value) :
      Utters (.input name) vars (some (.asked (name ++ " ? ") (.ok reply))) (.ok .next)
        (vars.insert name value)
  /-- `INPUT` changes nothing if the reply is no number. -/
  | misread {name reply : String} (vars : Variables) (unreadable : Number.read reply = none) :
      Utters (.input name) vars (some (.asked (name ++ " ? ") (.ok reply)))
        (.error (.invalidReply (String.ofList (Text.trim reply.toList)))) vars
  /-- `INPUT` changes nothing if the device fails. -/
  | unanswered {name : String} (vars : Variables) (e : Error) :
      Utters (.input name) vars (some (.asked (name ++ " ? ") (.error e))) (.error e) vars
  /-- The other statements say nothing. -/
  | silent {statement : Statement} (quiet : statement.speaks = false) (vars : Variables)
      (result : Except Error Transfer) (after : Variables) :
      Utters statement vars none result after

variable {σ : Type} {statement : Statement} {dev : Device (StateM (Host σ))} {w after : World σ}
  {result : Except Error Transfer}

/-- A statement that does not speak makes no call. -/
theorem journal_of_quiet (quiet : statement.speaks = false)
    (done : (statement.perform dev.journaled).outcome w = (result, after)) :
    after.journal = w.journal := by
  cases statement with
  | print | input => cases quiet
  | remark | jump | stop =>
    cases done
    rfl
  | assign => exact (performed_assign done).journal
  | branch => exact (performed_branch done).journal

/-- A statement says what its kind says, and nothing else. -/
theorem utters (done : (statement.perform dev.journaled).outcome w = (result, after)) :
    ∃ made, after.journal = made.toList ++ w.journal ∧
      statement.Utters w.memory.vars made result after.memory.vars := by
  by_cases quiet : statement.speaks = false
  · exact ⟨none, journal_of_quiet quiet done, .silent quiet _ _ _⟩
  cases statement with
  | remark | assign | jump | branch | stop => exact absurd rfl quiet
  | print literal values =>
    rw [outcome_perform_print] at done
    cases evaluated : (values.mapM Expr.eval).run w.memory.vars with
    | error e vars =>
      rw [evaluated] at done
      cases done
      exact ⟨none, rfl, .unprinted (Expr.broken_of_mapM evaluated)⟩
    | ok numbers vars =>
      rw [evaluated] at done
      cases done
      exact ⟨_, rfl, .printed (Expr.evaluated_of_mapM evaluated) _⟩
  | input name =>
    rw [outcome_perform_input] at done
    refine ⟨some (.asked (prompt name) (dev.input (prompt name) w.host).1), ?_⟩
    cases answer : (dev.input (prompt name) w.host).1 with
    | error e =>
      simp only [answer] at done
      cases done
      exact ⟨rfl, .unanswered _ e⟩
    | ok reply =>
      simp only [answer] at done
      cases known : Number.read reply with
      | none =>
        rw [known] at done
        cases done
        exact ⟨rfl, .misread _ known⟩
      | some value =>
        rw [known] at done
        cases done
        exact ⟨rfl, .answered _ known⟩

end Statement

end LineBasic
