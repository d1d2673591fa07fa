import LineBasic.Expr.Eval
import Mathlib

/-!
# What evaluation can fail with

Every operator that evaluation meets stands for an operation, so nothing can go wrong in it but that
a variable has no value or that something else stands on the left of an assignment. Neither error
knows of a line: that is for the run to add.

Results:
1. `Eval.Raises.mapM`: what computations one after the other fail with.
2. `Expr.stuck_eval`: why an evaluation fails, and what the variables are then.
3. `Expr.raises_eval`: the errors of evaluation.
-/

namespace LineBasic

/-- The errors that a statement raises by itself: in evaluation, or at a reply to `INPUT`. -/
inductive Error.Raised : Error → Prop
  | undefinedVariable (name : String) : Error.Raised (.undefinedVariable name)
  | illegalAssignment (target : String) : Error.Raised (.illegalAssignment target)
  | invalidReply (reply : String) : Error.Raised (.invalidReply reply)

namespace Error.Raised

variable {e : Error}

theorem line_eq_none (raised : e.Raised) : e.line = none := by
  cases raised <;> rfl

theorem code_ne_internalError (raised : e.Raised) : e.code ≠ .internalError := by
  cases raised <;> exact nofun

theorem code_ne_undefinedLine (raised : e.Raised) : e.code ≠ .undefinedLine := by
  cases raised <;> exact nofun

end Error.Raised

/-- Whatever error a computation on the variables fails with, `P` holds of it and of the variables
as they are then. -/
def Eval.Raises {α : Type} (x : Eval α) (P : Error → Variables → Prop) : Prop :=
  ∀ vars e vars', x.run vars = .error e vars' → P e vars'

namespace Eval.Raises

variable {α β : Type} {P Q : Error → Variables → Prop}

theorem pure (value : α) : Raises (Pure.pure value : Eval α) P := by
  intro vars e vars' failed
  cases failed

theorem changing (f : Variables → Variables) : Raises (modify f : Eval Unit) P := by
  intro vars e vars' failed
  cases failed

theorem throw {e : Error} (holds : ∀ vars, P e vars) :
    Raises (MonadExcept.throw e : Eval α) P := by
  intro vars e' vars' failed
  cases failed
  exact holds vars

theorem mono {x : Eval α} (raises : Raises x P) (weaker : ∀ e vars, P e vars → Q e vars) :
    Raises x Q :=
  fun vars e vars' failed => weaker e vars' (raises vars e vars' failed)

theorem bind {x : Eval α} {f : α → Eval β} (first : Raises x P)
    (next : ∀ value, Raises (f value) P) : Raises (x >>= f) P := by
  intro vars e vars' failed
  rw [EStateM.run_bind] at failed
  cases known : x.run vars with
  | ok value between =>
    rw [known] at failed
    exact next value between e vars' failed
  | error e' between =>
    rw [known] at failed
    cases failed
    exact first vars e vars' known

theorem mapM {γ : Type} {f : γ → Eval α} {xs : List γ} (each : ∀ x ∈ xs, Raises (f x) P) :
    Raises (xs.mapM f) P := by
  induction xs with
  | nil =>
    rw [List.mapM_nil]
    exact pure []
  | cons x xs ih =>
    rw [List.mapM_cons]
    refine (each x List.mem_cons_self).bind fun value => ?_
    exact (ih fun y mem => each y (List.mem_cons_of_mem x mem)).bind fun values => pure _

end Eval.Raises

namespace Expr

/-- `part.Within e`: to evaluate `e`, it may be necessary to evaluate `part`. What stands left of an
equals sign is not evaluated. -/
inductive Within (part : Expr) : Expr → Prop
  | whole : Within part part
  | left {op : ArithOp} {left right : Expr} : Within part left → Within part (arith op left right)
  | right {op : ArithOp} {left right : Expr} :
      Within part right → Within part (arith op left right)
  | value {target value : Expr} : Within part value → Within part (assign target value)

/-- Why an evaluation fails, with the variables as they are then. -/
inductive Stuck (e : Expr) (vars : Variables) : Error → Prop
  /-- It comes to a variable without a value. -/
  | undefinedVariable {name : String} (part : (var name).Within e)
      (undefined : vars.find? name = none) : Stuck e vars (.undefinedVariable name)
  /-- It comes to an assignment to something that is not a variable. -/
  | illegalAssignment {target value : Expr} (part : (assign target value).Within e)
      (illegal : ∀ name, target ≠ var name) : Stuck e vars (.illegalAssignment target.text)

namespace Stuck

variable {e whole : Expr} {vars : Variables} {err : Error}

theorem raised (stuck : e.Stuck vars err) : err.Raised := by
  cases stuck with
  | undefinedVariable => exact .undefinedVariable _
  | illegalAssignment => exact .illegalAssignment _

/-- Where a part is stuck, so is the whole. -/
theorem within (widens : ∀ part : Expr, part.Within e → part.Within whole)
    (stuck : e.Stuck vars err) : whole.Stuck vars err := by
  cases stuck with
  | undefinedVariable part undefined => exact .undefinedVariable (widens _ part) undefined
  | illegalAssignment part illegal => exact .illegalAssignment (widens _ part) illegal

end Stuck

theorem run_eval_var (name : String) (vars : Variables) :
    (var name).eval.run vars =
      match vars.find? name with
      | some value => .ok value vars
      | none => .error (.undefinedVariable name) vars := by
  simp only [eval, EStateM.run_bind, EStateM.run_get, Variables.value]
  cases vars.find? name <;> rfl

/-- Why an evaluation fails. -/
theorem stuck_eval (e : Expr) : e.eval.Raises fun err vars => e.Stuck vars err := by
  induction e with
  | constant value => exact .pure value
  | var name =>
    intro vars err vars' failed
    rw [run_eval_var] at failed
    cases undefined : vars.find? name with
    | some value =>
      rw [undefined] at failed
      cases failed
    | none =>
      rw [undefined] at failed
      cases failed
      exact .undefinedVariable .whole undefined
  | arith op left right left_ih right_ih =>
    rw [eval]
    refine (left_ih.mono ?_).bind fun a => (right_ih.mono ?_).bind fun b => ?_
    · exact fun _ _ => .within fun _ => .left
    · exact fun _ _ => .within fun _ => .right
    · rw [ArithOp.result?_operator]
      exact .pure _
  | assign target value _ value_ih =>
    cases target with
    | var name =>
      rw [eval]
      refine (value_ih.mono ?_).bind fun result =>
        (Eval.Raises.changing _).bind fun _ => .pure result
      exact fun _ _ => .within fun _ => .value
    | constant | arith | assign =>
      rw [eval]
      · exact .throw fun vars => .illegalAssignment .whole nofun
      · exact nofun

theorem raises_eval (e : Expr) : e.eval.Raises fun err _ => err.Raised :=
  e.stuck_eval.mono fun _ _ => Stuck.raised

end Expr

end LineBasic
