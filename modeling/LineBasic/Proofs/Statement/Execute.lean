import LineBasic.Proofs.Call
import LineBasic.Proofs.Expr.Eval
import LineBasic.Proofs.World

/-!
# What carrying out a statement comes to

A statement calls on the device once at most, to speak or to listen. It leads where its kind says,
or it fails with an error that is its own or the device's. It does not touch the transfer register:
that is set once, when all else has succeeded.

Results:
1. `Statement.Stuck`: why a statement fails by itself.
2. `Statement.outcome_perform_print` and its like: what each kind of statement comes to.
3. `Statement.performed`: all that carrying out a statement can come to.
4. `Statement.outcome_execute`: the register is set behind that.
-/

namespace LineBasic

namespace Statement

/-- Where a statement can lead. -/
inductive Leads : Statement → Transfer → Prop
  | remark (text : String) : Leads (.remark text) .next
  | assign (name : String) (value : Expr) : Leads (.assign name value) .next
  | print (literal : Option String) (values : List Expr) : Leads (.print literal values) .next
  | input (name : String) : Leads (.input name) .next
  | jump (target : LineNumber) : Leads (.jump target) (.jump target)
  | taken (left : Expr) (comparison : Comparison) (right : Expr) (target : LineNumber) :
      Leads (.branch left comparison right target) (.jump target)
  | passed (left : Expr) (comparison : Comparison) (right : Expr) (target : LineNumber) :
      Leads (.branch left comparison right target) .next
  | stop : Leads .stop .halt

/-- The line to which a statement can jump. -/
def target? : Statement → Option LineNumber
  | jump target | branch _ _ _ target => some target
  | remark _ | assign .. | print .. | input _ | stop => none

theorem Leads.target?_eq {statement : Statement} {target : LineNumber}
    (leads : statement.Leads (.jump target)) : statement.target? = some target := by
  cases leads <;> rfl

/-- The expressions that a statement evaluates. -/
def exprs : Statement → List Expr
  | assign _ value => [value]
  | print _ values => values
  | branch left _ right _ => [left, right]
  | remark _ | input _ | jump _ | stop => []

/-- Why a statement fails by itself, with the call that it has made and the variables as they are
then. -/
inductive Stuck (statement : Statement) (made : Option Call) (vars : Variables) : Error → Prop
  /-- One of its expressions cannot be evaluated. -/
  | evaluation {x : Expr} {e : Error} (mem : x ∈ statement.exprs) (stuck : x.Stuck vars e) :
      Stuck statement made vars e
  /-- The reply to `INPUT` is no number. -/
  | reply {name reply : String} (isInput : statement = .input name)
      (asked : made = some (.asked (prompt name) (.ok reply)))
      (unreadable : Number.read reply = none) :
      Stuck statement made vars (.invalidReply (String.ofList (Text.trim reply.toList)))

theorem Stuck.raised {statement : Statement} {made : Option Call} {vars : Variables} {e : Error}
    (stuck : statement.Stuck made vars e) : e.Raised := by
  cases stuck with
  | evaluation _ stuck => exact stuck.raised
  | reply => exact .invalidReply _

/-- Carrying out a statement has led from one world to another, with a call or without one. -/
structure Performed {σ : Type} (statement : Statement) (dev : Device (StateM (Host σ)))
    (w : World σ) (made : Option Call) (result : Except Error Transfer) (after : World σ) :
    Prop where
  journal : after.journal = made.toList ++ w.journal
  transfer : after.memory.transfer = w.memory.transfer
  talk : ∀ call ∈ made, call.isTalk ∧ call.Of dev
  leads : ∀ t, result = .ok t → statement.Leads t
  fails : ∀ e, result = .error e →
    statement.Stuck made after.memory.vars e ∨ ∃ call ∈ made, call.error? = some e

variable {σ : Type} {statement : Statement} {dev : Device (StateM (Host σ))} {w after : World σ}
  {made : Option Call} {t : Transfer} {e : Error} {result : Except Error Transfer}

theorem Performed.ok (journal : after.journal = made.toList ++ w.journal)
    (transfer : after.memory.transfer = w.memory.transfer)
    (talk : ∀ call ∈ made, call.isTalk ∧ call.Of dev) (leads : statement.Leads t) :
    statement.Performed dev w made (.ok t) after :=
  ⟨journal, transfer, talk, fun _ h => Except.ok.inj h ▸ leads, nofun⟩

theorem Performed.error (journal : after.journal = made.toList ++ w.journal)
    (transfer : after.memory.transfer = w.memory.transfer)
    (talk : ∀ call ∈ made, call.isTalk ∧ call.Of dev)
    (fails : statement.Stuck made after.memory.vars e ∨ ∃ call ∈ made, call.error? = some e) :
    statement.Performed dev w made (.error e) after :=
  ⟨journal, transfer, talk, nofun, fun _ h => Except.error.inj h ▸ fails⟩

theorem Performed.journal_suffix (performed : statement.Performed dev w made result after) :
    w.journal <:+ after.journal :=
  performed.journal ▸ List.suffix_append _ _

/-- Values that are evaluated one after the other are stuck at one of them. -/
theorem stuck_mapM (values : List Expr) :
    (values.mapM Expr.eval).Raises fun e vars => ∃ x ∈ values, x.Stuck vars e :=
  .mapM fun x mem => x.stuck_eval.mono fun _ _ stuck => ⟨x, mem, stuck⟩

/-- No call has been made, so there is nothing to say about it. -/
theorem noCall : ∀ call ∈ (none : Option Call), call.isTalk ∧ call.Of dev := by
  rintro call ⟨⟩

theorem oneCall (call : Call) (talk : call.isTalk) (answered : call.Of dev) :
    ∀ made ∈ some call, made.isTalk ∧ made.Of dev := by
  rintro made ⟨⟩
  exact ⟨talk, answered⟩

/-- One of the expressions of a statement has been stuck, before any call. -/
theorem Performed.stuck {x : Expr} {vars : Variables} (mem : x ∈ statement.exprs)
    (stuck : x.Stuck vars e) : statement.Performed dev w none (.error e) (w.setVars vars) :=
  .error rfl rfl noCall (.inl (.evaluation mem stuck))

/-! ### Each kind of statement -/

section Outcomes

variable (dev : Device (StateM (Host σ))) (w : World σ)

theorem outcome_perform_assign (name : String) (value : Expr) :
    ((assign name value).perform dev.journaled).outcome w =
      match value.eval.run w.memory.vars with
      | .ok number vars =>
        (.ok .next, (w.setVars vars).setMemory ((w.setVars vars).memory.setValue name number))
      | .error e vars => (.error e, w.setVars vars) := by
  simp only [perform, Exec.outcome_bind, Exec.outcome_eval]
  cases value.eval.run w.memory.vars <;> rfl

/-- Nothing is written unless all values are known. -/
theorem outcome_perform_print (literal : Option String) (values : List Expr) :
    ((print literal values).perform dev.journaled).outcome w =
      match (values.mapM Expr.eval).run w.memory.vars with
      | .ok numbers vars =>
        let answer := dev.print (printed literal numbers) w.host
        (answer.1.map fun _ => .next,
          (w.setVars vars).record (.printed (printed literal numbers) answer.1) answer.2)
      | .error e vars => (.error e, w.setVars vars) := by
  simp only [perform, Exec.outcome_bind, Exec.outcome_eval, Device.journaled]
  cases (values.mapM Expr.eval).run w.memory.vars with
  | error => rfl
  | ok numbers vars =>
    simp only [Exec.outcome_call, World.host_setVars]
    cases (dev.print (printed literal numbers) w.host).1 <;> rfl

/-- The device is asked first, and the variable is changed if the reply can be read. -/
theorem outcome_perform_input (name : String) :
    ((input name).perform dev.journaled).outcome w =
      let answer := dev.input (prompt name) w.host
      let asked := w.record (.asked (prompt name) answer.1) answer.2
      match answer.1 with
      | .error e => (.error e, asked)
      | .ok reply =>
        match Number.read reply with
        | some value => (.ok .next, asked.setMemory (asked.memory.setValue name value))
        | none => (.error (.invalidReply (String.ofList (Text.trim reply.toList))), asked) := by
  simp only [perform, Exec.outcome_bind, Device.journaled, Exec.outcome_call]
  cases (dev.input (prompt name) w.host).1 with
  | error => rfl
  | ok reply =>
    simp only
    cases Number.read reply <;> rfl

theorem outcome_perform_branch (left right : Expr) (comparison : Comparison)
    (target : LineNumber) :
    ((branch left comparison right target).perform dev.journaled).outcome w =
      match left.eval.run w.memory.vars with
      | .error e vars => (.error e, w.setVars vars)
      | .ok a vars =>
        match right.eval.run vars with
        | .error e vars => (.error e, w.setVars vars)
        | .ok b vars =>
          (.ok (if comparison.holds a b then .jump target else .next), w.setVars vars) := by
  simp only [perform, Exec.outcome_bind, Exec.outcome_eval, Exec.outcome_pure]
  cases left.eval.run w.memory.vars with
  | error => rfl
  | ok a vars =>
    simp only [World.vars_setVars]
    cases right.eval.run vars <;> rfl

end Outcomes

theorem performed_assign {name : String} {value : Expr}
    (done : ((assign name value).perform dev.journaled).outcome w = (result, after)) :
    (assign name value).Performed dev w none result after := by
  rw [outcome_perform_assign] at done
  cases evaluated : value.eval.run w.memory.vars with
  | ok number vars =>
    rw [evaluated] at done
    cases done
    exact .ok rfl rfl noCall (.assign name value)
  | error e vars =>
    rw [evaluated] at done
    cases done
    exact .stuck List.mem_cons_self (value.stuck_eval _ _ _ evaluated)

theorem performed_print {literal : Option String} {values : List Expr}
    (done : ((print literal values).perform dev.journaled).outcome w = (result, after)) :
    ∃ made, (print literal values).Performed dev w made result after := by
  rw [outcome_perform_print] at done
  cases evaluated : (values.mapM Expr.eval).run w.memory.vars with
  | error e vars =>
    rw [evaluated] at done
    cases done
    obtain ⟨x, mem, stuck⟩ := stuck_mapM values _ _ _ evaluated
    exact ⟨none, .stuck mem stuck⟩
  | ok numbers vars =>
    simp only [evaluated] at done
    have talk := oneCall (.printed (printed literal numbers)
      (dev.print (printed literal numbers) w.host).1) rfl ⟨w.host, rfl⟩
    cases answer : (dev.print (printed literal numbers) w.host).1 with
    | ok _ =>
      rw [answer] at done talk
      cases done
      exact ⟨_, .ok rfl rfl talk (.print literal values)⟩
    | error e =>
      rw [answer] at done talk
      cases done
      exact ⟨_, .error rfl rfl talk (.inr ⟨_, rfl, rfl⟩)⟩

theorem performed_input {name : String}
    (done : ((input name).perform dev.journaled).outcome w = (result, after)) :
    ∃ made, (input name).Performed dev w made result after := by
  rw [outcome_perform_input] at done
  have talk := oneCall (.asked (prompt name) (dev.input (prompt name) w.host).1) rfl ⟨w.host, rfl⟩
  cases answer : (dev.input (prompt name) w.host).1 with
  | error e =>
    simp only [answer] at done talk
    cases done
    exact ⟨_, .error rfl rfl talk (.inr ⟨_, rfl, rfl⟩)⟩
  | ok reply =>
    simp only [answer] at done talk
    cases known : Number.read reply with
    | some value =>
      rw [known] at done
      cases done
      exact ⟨_, .ok rfl rfl talk (.input name)⟩
    | none =>
      rw [known] at done
      cases done
      exact ⟨_, .error rfl rfl talk (.inl (.reply rfl rfl known))⟩

theorem performed_branch {left right : Expr} {comparison : Comparison} {target : LineNumber}
    (done : ((branch left comparison right target).perform dev.journaled).outcome w =
      (result, after)) :
    (branch left comparison right target).Performed dev w none result after := by
  rw [outcome_perform_branch] at done
  cases evaluated : left.eval.run w.memory.vars with
  | error e vars =>
    rw [evaluated] at done
    cases done
    exact .stuck List.mem_cons_self (left.stuck_eval _ _ _ evaluated)
  | ok a vars =>
    simp only [evaluated] at done
    cases compared : right.eval.run vars with
    | error e vars =>
      rw [compared] at done
      cases done
      exact .stuck (by simp [exprs]) (right.stuck_eval _ _ _ compared)
    | ok b vars =>
      simp only [compared] at done
      cases done
      cases comparison.holds a b with
      | true => exact .ok rfl rfl noCall (.taken left comparison right target)
      | false => exact .ok rfl rfl noCall (.passed left comparison right target)

/-- All that carrying out a statement can come to. -/
theorem performed (done : (statement.perform dev.journaled).outcome w = (result, after)) :
    ∃ made, statement.Performed dev w made result after := by
  cases statement with
  | remark text =>
    cases done
    exact ⟨none, .ok rfl rfl noCall (.remark text)⟩
  | assign name value => exact ⟨none, performed_assign done⟩
  | print literal values => exact performed_print done
  | input name => exact performed_input done
  | jump target =>
    cases done
    exact ⟨none, .ok rfl rfl noCall (.jump target)⟩
  | branch left comparison right target => exact ⟨none, performed_branch done⟩
  | stop =>
    cases done
    exact ⟨none, .ok rfl rfl noCall .stop⟩

/-! ### The register -/

/-- The register is set when all else has succeeded, and only then. -/
theorem outcome_execute (statement : Statement) (dev : Device (StateM (Host σ))) (w : World σ) :
    (statement.execute dev.journaled).outcome w =
      match (statement.perform dev.journaled).outcome w with
      | (.ok t, w) => (.ok (), w.setMemory (w.memory.setTransfer t))
      | (.error e, w) => (.error e, w) := by
  simp only [execute, Exec.outcome_bind, Exec.outcome_onMemory]
  rcases (statement.perform dev.journaled).outcome w with ⟨_ | _, _⟩ <;> rfl

end Statement

end LineBasic
