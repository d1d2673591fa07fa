import LineBasic.Memory
import LineBasic.Proofs.Expr.Eval

/-!
# What evaluation depends on, and what it changes

All that evaluation does to the variables is to assign some to which its assignments are
(`Expr.writes_eval`). So a variable that no assignment is to is left alone, and none is forgotten.

Two evaluations of an expression go alike if what is read in the one has a counterpart in the other.
What counts as a counterpart is left open (`Likeness`). If any two values do, evaluation is seen to
depend on nothing but which variables have values; if only equal values do, on nothing but the
variables that the expression mentions.

Results:
1. `Expr.matched_eval`: evaluations from variables that are alike.
2. `Expr.writes_eval`: what evaluation does to the variables.
3. `Expr.definedness_eval`: whether an expression evaluates depends on which variables have values.
4. `Expr.frame_eval`: evaluation reads and writes only the variables that it names.
-/

namespace LineBasic

/-! ## 1. Two evaluations -/

namespace Eval

variable {α β γ δ : Type} {R : Variables → Variables → Prop} {V : α → β → Prop} {W : γ → δ → Prop}

/-- Two computations have come to values that `V` relates, or to the same error, and `R` relates the
variables that they have left behind. -/
inductive Alike (R : Variables → Variables → Prop) (V : α → β → Prop) :
    EStateM.Result Error Variables α → EStateM.Result Error Variables β → Prop
  | ok {a : α} {b : β} {after after' : Variables} (values : V a b) (vars : R after after') :
      Alike R V (.ok a after) (.ok b after')
  | error (e : Error) {after after' : Variables} (vars : R after after') :
      Alike R V (.error e after) (.error e after')

/-- From variables that `R` relates, two computations come to results that are alike. -/
def Matched (R : Variables → Variables → Prop) (V : α → β → Prop) (x : Eval α) (y : Eval β) :
    Prop :=
  ∀ vars vars', R vars vars' → Alike R V (x.run vars) (y.run vars')

namespace Matched

theorem pure {a : α} {b : β} (values : V a b) :
    Matched R V (Pure.pure a : Eval α) (Pure.pure b : Eval β) :=
  fun _ _ vars => .ok values vars

theorem throw (e : Error) :
    Matched R V (MonadExcept.throw e : Eval α) (MonadExcept.throw e : Eval β) :=
  fun _ _ vars => .error e vars

theorem changing {f g : Variables → Variables}
    (kept : ∀ vars vars', R vars vars' → R (f vars) (g vars')) :
    Matched R (fun _ _ => True) (modify f : Eval Unit) (modify g : Eval Unit) :=
  fun vars vars' alike => .ok trivial (kept vars vars' alike)

theorem bind {x : Eval α} {y : Eval β} {f : α → Eval γ} {g : β → Eval δ} (first : Matched R V x y)
    (next : ∀ a b, V a b → Matched R W (f a) (g b)) : Matched R W (x >>= f) (y >>= g) := by
  intro vars vars' alike
  have results := first vars vars' alike
  rw [EStateM.run_bind, EStateM.run_bind]
  generalize x.run vars = result at *
  generalize y.run vars' = result' at *
  cases results with
  | ok values alike => exact next _ _ values _ _ alike
  | error e alike => exact .error e alike

end Matched

end Eval

/-- A way to see variables and values as alike that evaluation cannot get behind. Of the variables
that are read, those in `P` have to be alike. -/
structure Likeness (P : String → Prop) (R : Variables → Variables → Prop)
    (V : Number → Number → Prop) : Prop where
  same (value : Number) : V value value
  apply (op : ArithOp) {a a' b b' : Number} : V a a' → V b b' → V (op.apply a b) (op.apply a' b')
  lookup {name : String} {vars vars' : Variables} :
    P name → R vars vars' → Option.Rel V (vars.find? name) (vars'.find? name)
  insert (name : String) {a a' : Number} {vars vars' : Variables} :
    V a a' → R vars vars' → R (vars.insert name a) (vars'.insert name a')

namespace Expr

/-- A name stands somewhere in an expression. -/
def Mentions : Expr → String → Prop
  | constant _, _ => False
  | var name, x => name = x
  | arith _ left right, x => left.Mentions x ∨ right.Mentions x
  | assign target value, x => target.Mentions x ∨ value.Mentions x

/-- From variables that are alike, evaluations of an expression go alike. -/
theorem matched_eval {P : String → Prop} {R : Variables → Variables → Prop}
    {V : Number → Number → Prop} (likeness : Likeness P R V) (e : Expr)
    (reads : ∀ x, e.Mentions x → P x) : e.eval.Matched R V e.eval := by
  induction e with
  | constant value => exact .pure (likeness.same value)
  | var name =>
    intro vars vars' alike
    have found := likeness.lookup (reads name rfl) alike
    rw [run_eval_var, run_eval_var]
    generalize vars.find? name = value at *
    generalize vars'.find? name = value' at *
    cases found with
    | some values => exact .ok values alike
    | none => exact .error _ alike
  | arith op left right left_ih right_ih =>
    rw [eval]
    refine (left_ih fun x h => reads x (.inl h)).bind fun a a' first => ?_
    refine (right_ih fun x h => reads x (.inr h)).bind fun b b' second => ?_
    rw [ArithOp.result?_operator, ArithOp.result?_operator]
    exact .pure (likeness.apply op first second)
  | assign target value _ value_ih =>
    cases target with
    | var name =>
      rw [eval]
      refine (value_ih fun x h => reads x (.inr h)).bind fun a a' values => ?_
      refine (Eval.Matched.changing fun _ _ => likeness.insert name values).bind fun _ _ _ => ?_
      exact .pure values
    | constant | arith | assign =>
      -- What is not a variable is refused before the value is evaluated.
      rw [eval]
      · exact .throw _
      · rintro _ ⟨⟩

end Expr

/-! ## 2. What is written -/

/-- Some variables in `targets` have been assigned, one after the other. -/
inductive Variables.Written (targets : String → Prop) : Variables → Variables → Prop
  | nothing (vars : Variables) : Written targets vars vars
  | assigned {vars between : Variables} {name : String} (value : Number)
      (before : Written targets vars between) (target : targets name) :
      Written targets vars (between.insert name value)

namespace Variables

@[simp] theorem contains_insert (vars : Variables) (name x : String) (value : Number) :
    (vars.insert name value).contains x = (decide (x = name) || vars.contains x) := by
  simp only [SortedMap.contains, SortedMap.find?_insert]
  split <;> simp [*]

namespace Written

variable {targets more : String → Prop} {vars between after : Variables} {x : String}

theorem trans (first : Written targets vars between) (next : Written targets between after) :
    Written targets vars after := by
  induction next with
  | nothing => exact first
  | assigned value _ target ih => exact .assigned value ih target

theorem mono (wider : ∀ name, targets name → more name) (written : Written targets vars after) :
    Written more vars after := by
  induction written with
  | nothing => exact .nothing vars
  | assigned value _ target ih => exact .assigned value ih (wider _ target)

/-- What is not assigned keeps its value, or stays without one. -/
theorem find?_eq (written : Written targets vars after) (other : ¬ targets x) :
    after.find? x = vars.find? x := by
  induction written with
  | nothing => rfl
  | assigned value _ target ih =>
    rw [SortedMap.find?_insert, if_neg, ih]
    rintro rfl
    exact other target

/-- No variable is forgotten. -/
theorem contains (written : Written targets vars after) (present : vars.contains x = true) :
    after.contains x = true := by
  induction written with
  | nothing => exact present
  | assigned value _ _ ih => rw [contains_insert, ih, Bool.or_true]

/-- Only what is assigned can have a value that had none. -/
theorem contains_or_target (written : Written targets vars after)
    (present : after.contains x = true) : vars.contains x = true ∨ targets x := by
  induction written with
  | nothing => exact .inl present
  | assigned value _ target ih =>
    rw [contains_insert, Bool.or_eq_true, decide_eq_true_iff] at present
    rcases present with rfl | present
    · exact .inr target
    · exact ih present

end Written

end Variables

namespace Eval

variable {α β : Type} {targets more : String → Prop}

/-- The variables that a computation leaves behind, whether it succeeds or fails. -/
def after (x : Eval α) (vars : Variables) : Variables :=
  match x.run vars with
  | .ok _ vars | .error _ vars => vars

/-- All that a computation does to the variables is to assign some in `targets`. -/
def Writes (targets : String → Prop) (x : Eval α) : Prop :=
  ∀ vars, Variables.Written targets vars (x.after vars)

namespace Writes

theorem pure (value : α) : Writes targets (Pure.pure value : Eval α) := .nothing

theorem throw (e : Error) : Writes targets (MonadExcept.throw e : Eval α) := .nothing

theorem inserting {name : String} (value : Number) (target : targets name) :
    Writes targets (modify (·.insert name value) : Eval Unit) :=
  fun vars => .assigned value (.nothing vars) target

theorem mono {x : Eval α} (wider : ∀ name, targets name → more name) (writes : Writes targets x) :
    Writes more x := fun vars => (writes vars).mono wider

theorem bind {x : Eval α} {f : α → Eval β} (first : Writes targets x)
    (next : ∀ value, Writes targets (f value)) : Writes targets (x >>= f) := by
  intro vars
  have written := first vars
  simp only [after, EStateM.run_bind] at written ⊢
  cases known : x.run vars with
  | ok value between =>
    rw [known] at written
    exact written.trans (next value between)
  | error e between =>
    rw [known] at written
    exact written

end Writes

end Eval

namespace Expr

/-- An expression has an assignment to a variable. One that stands left of another equals sign does
not count, as it is never evaluated. -/
def Assigns : Expr → String → Prop
  | constant _, _ | var _, _ => False
  | arith _ left right, x => left.Assigns x ∨ right.Assigns x
  | assign target value, x => target = var x ∨ value.Assigns x

/-- All that evaluation does to the variables is to assign some to which an assignment is. -/
theorem writes_eval (e : Expr) : e.eval.Writes e.Assigns := by
  induction e with
  | constant value => exact .pure value
  | var name =>
    intro vars
    rw [Eval.after, run_eval_var]
    cases vars.find? name <;> exact .nothing vars
  | arith op left right left_ih right_ih =>
    rw [eval]
    refine (left_ih.mono ?_).bind fun a => (right_ih.mono ?_).bind fun b => ?_
    · exact fun _ => .inl
    · exact fun _ => .inr
    · rw [ArithOp.result?_operator]
      exact .pure _
  | assign target value _ value_ih =>
    cases target with
    | var name =>
      rw [eval]
      exact (value_ih.mono fun _ => .inr).bind fun result =>
        (Eval.Writes.inserting result (.inl rfl)).bind fun _ => .pure result
    | constant | arith | assign =>
      rw [eval]
      · exact .throw _
      · rintro _ ⟨⟩

end Expr

/-! ## 3. Evaluation in a memory -/

namespace Variables

/-- The same variables have values. -/
def SameNames (vars vars' : Variables) : Prop := ∀ x, vars'.contains x = vars.contains x

/-- The variables in `P` have the same values, or none. -/
def AgreeOn (P : String → Prop) (vars vars' : Variables) : Prop :=
  ∀ x, P x → vars'.find? x = vars.find? x

/-- If any two values count as alike, variables are alike when the same have values. -/
theorem likeness_sameNames : Likeness (fun _ => True) SameNames fun _ _ => True where
  same _ := trivial
  apply _ := fun _ _ => trivial
  lookup {name vars vars'} _ same := by
    have known : (vars'.find? name).isSome = (vars.find? name).isSome := same name
    cases found : vars.find? name with
    | some value =>
      obtain ⟨value', found'⟩ := Option.isSome_iff_exists.1 (known.trans (by rw [found]; rfl))
      rw [found']
      exact .some trivial
    | none =>
      rw [found, Option.isSome_none, Option.isSome_eq_false_iff, Option.isNone_iff_eq_none] at known
      rw [known]
      exact .none
  insert name _ _ _ _ _ same x := by rw [contains_insert, contains_insert, same x]

/-- If only equal values count as alike, variables are alike when they agree on all that is read. -/
theorem likeness_agreeOn (P : String → Prop) : Likeness P (AgreeOn P) Eq where
  same _ := rfl
  apply _ _ _ _ _ first second := by rw [first, second]
  lookup {name vars vars'} read agree := by
    rw [agree name read]
    cases vars.find? name with
    | some value => exact .some rfl
    | none => exact .none
  insert name _ _ _ _ equal agree x read := by
    rw [SortedMap.find?_insert, SortedMap.find?_insert, agree x read, equal]

end Variables

/-- Evaluation leaves all of a memory but the variables alone. -/
theorem Memory.eval_snd {α : Type} (mem : Memory) (x : Eval α) :
    (mem.eval x).2 = { mem with vars := x.after mem.vars } := by
  rw [Memory.eval, Eval.after]
  cases x.run mem.vars <;> rfl

/-- What evaluations that go alike come to in two memories. -/
theorem Memory.alike_eval {α β : Type} {R : Variables → Variables → Prop} {V : α → β → Prop}
    {x : Eval α} {y : Eval β} (matched : x.Matched R V y) {mem mem' : Memory}
    (alike : R mem.vars mem'.vars) :
    ((∃ a b, (mem.eval x).1 = .ok a ∧ (mem'.eval y).1 = .ok b ∧ V a b) ∨
        ∃ e, (mem.eval x).1 = .error e ∧ (mem'.eval y).1 = .error e) ∧
      R (mem.eval x).2.vars (mem'.eval y).2.vars := by
  have results := matched _ _ alike
  rw [Memory.eval, Memory.eval]
  generalize x.run mem.vars = result at *
  generalize y.run mem'.vars = result' at *
  cases results with
  | ok values alike => exact ⟨.inl ⟨_, _, rfl, rfl, values⟩, alike⟩
  | error e alike => exact ⟨.inr ⟨e, rfl, rfl⟩, alike⟩

namespace Expr

/-- Whether an expression evaluates depends only on which variables have values. Where the same ones
have values, it evaluates in both memories or fails with the same error in both, and afterwards
again the same variables have values: those that had before and, of the others, only some to which
the expression has an assignment. -/
theorem definedness_eval (e : Expr) {mem mem' : Memory}
    (same : ∀ x, mem'.vars.contains x = mem.vars.contains x) :
    ((∃ value, (mem.eval e.eval).1 = .ok value) ↔ ∃ value, (mem'.eval e.eval).1 = .ok value) ∧
      (∀ err, (mem.eval e.eval).1 = .error err ↔ (mem'.eval e.eval).1 = .error err) ∧
      (∀ x, (mem'.eval e.eval).2.vars.contains x = (mem.eval e.eval).2.vars.contains x) ∧
      (∀ x, mem.vars.contains x → (mem.eval e.eval).2.vars.contains x) ∧
      ∀ x, (mem.eval e.eval).2.vars.contains x → mem.vars.contains x ∨ e.Assigns x := by
  have alike : mem.vars.SameNames mem'.vars := same
  obtain ⟨results, again⟩ :=
    Memory.alike_eval (e.matched_eval Variables.likeness_sameNames fun _ _ => trivial) alike
  have written := e.writes_eval mem.vars
  refine ⟨?_, ?_, again, ?_, ?_⟩
  · rcases results with ⟨a, b, ok, ok', -⟩ | ⟨err, failed, failed'⟩
    · rw [ok, ok']
      exact iff_of_true ⟨a, rfl⟩ ⟨b, rfl⟩
    · rw [failed, failed']
  · intro err
    rcases results with ⟨a, b, ok, ok', -⟩ | ⟨err', failed, failed'⟩
    · rw [ok, ok']
      exact iff_of_false nofun nofun
    · rw [failed, failed']
  · intro x present
    rw [Memory.eval_snd]
    exact written.contains present
  · intro x present
    rw [Memory.eval_snd] at present
    exact written.contains_or_target present

/-- With the value one or an infinity, `(B = A) + C` assigns `B` and then comes to a variable
without a value. -/
theorem definedness_eval_infinity :
    let e := arith .add (assign (var "B") (var "A")) (var "C")
    let mem := (Memory.new .warning).setValue "A" 1
    let mem' := (Memory.new .warning).setValue "A" (1 / 0)
    (∀ x, mem'.vars.contains x = mem.vars.contains x) ∧
      (mem.eval e.eval).1 = .error (.undefinedVariable "C") ∧
      (mem'.eval e.eval).1 = .error (.undefinedVariable "C") ∧
      (mem'.eval e.eval).2.vars.contains "B" = (mem.eval e.eval).2.vars.contains "B" := by
  intro e mem mem'
  have same : ∀ x, mem'.vars.contains x = mem.vars.contains x := fun x =>
    (Variables.contains_insert ..).trans (Variables.contains_insert ..).symm
  have failed : (mem.eval e.eval).1 = .error (.undefinedVariable "C") := by decide +kernel
  obtain ⟨-, errors, names, -⟩ := definedness_eval e same
  exact ⟨same, failed, (errors _).1 failed, names "B"⟩

/-- Evaluation reads and writes only the variables that it names. In memories that agree on the
names in an expression it comes to the same, and they agree on these names again. In any memory,
whether it succeeds or fails, it leaves every variable alone to which no assignment is, forgets
none, and does not touch the transfer register. -/
theorem frame_eval (e : Expr) :
    (∀ mem mem' : Memory, (∀ x, e.Mentions x → mem'.vars.find? x = mem.vars.find? x) →
      (mem'.eval e.eval).1 = (mem.eval e.eval).1 ∧
        ∀ x, e.Mentions x → (mem'.eval e.eval).2.vars.find? x = (mem.eval e.eval).2.vars.find? x) ∧
      ∀ mem : Memory,
        (∀ x, ¬ e.Assigns x → (mem.eval e.eval).2.vars.find? x = mem.vars.find? x) ∧
        (∀ x, mem.vars.contains x → (mem.eval e.eval).2.vars.contains x) ∧
        (mem.eval e.eval).2.transfer = mem.transfer := by
  refine ⟨fun mem mem' agree => ?_, fun mem => ?_⟩
  · have alike : mem.vars.AgreeOn e.Mentions mem'.vars := agree
    obtain ⟨results, again⟩ := Memory.alike_eval
      (e.matched_eval (Variables.likeness_agreeOn e.Mentions) fun _ read => read) alike
    refine ⟨?_, again⟩
    rcases results with ⟨a, b, ok, ok', rfl⟩ | ⟨err, failed, failed'⟩
    · rw [ok, ok']
    · rw [failed, failed']
  · have written := e.writes_eval mem.vars
    rw [Memory.eval_snd]
    exact ⟨fun x other => written.find?_eq other, fun x present => written.contains present, rfl⟩

/-- With other values of `D`, which it does not mention, `(B = A) + C` fails behind the same
assignment, and `D` keeps its value. -/
theorem frame_eval_failed :
    let e := arith .add (assign (var "B") (var "A")) (var "C")
    let mem := ((Memory.new .warning).setValue "A" 1).setValue "D" 7
    let mem' := ((Memory.new .warning).setValue "A" 1).setValue "D" 8
    (∀ x, e.Mentions x → mem'.vars.find? x = mem.vars.find? x) ∧
      (mem'.eval e.eval).1 = (mem.eval e.eval).1 ∧
      (mem.eval e.eval).1 = .error (.undefinedVariable "C") ∧
      (mem'.eval e.eval).2.vars.find? "B" = (mem.eval e.eval).2.vars.find? "B" ∧
      ¬ e.Assigns "D" ∧ (mem.eval e.eval).2.vars.find? "D" = mem.vars.find? "D" := by
  intro e mem mem'
  have agree : ∀ x, e.Mentions x → mem'.vars.find? x = mem.vars.find? x := by
    rintro x ((rfl | rfl) | rfl) <;> decide +kernel
  have other : ¬ e.Assigns "D" := by
    rintro ((same | ⟨⟨⟩⟩) | ⟨⟨⟩⟩)
    exact absurd (Expr.var.inj same) (by decide)
  obtain ⟨two, one⟩ := frame_eval e
  obtain ⟨result, again⟩ := two mem mem' agree
  exact ⟨agree, result, by decide +kernel, again "B" (.inl (.inl rfl)), other,
    (one mem).1 "D" other⟩

end Expr

end LineBasic
