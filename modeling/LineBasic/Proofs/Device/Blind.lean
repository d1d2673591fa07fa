import LineBasic.Proofs.Device.Same

/-!
# Devices to which all lines are the same

A device is shown lines with their statements, and it is asked behind a line whether to go on. Two
devices, each with its host, are `Blind` when no sequences of requests tell them apart that are the
same but for line numbers and statements.

Results:
1. `Blind.serve`, `Blind.talks`: blind devices tell the same, and are blind behind it.
2. `Blind.of_invariant`, `Blind.refl`: when devices are blind.
-/

namespace LineBasic

/-- A transfer, but for the line number. -/
def Transfer.blind : Transfer → Transfer
  | next => next
  | jump _ => jump 0
  | halt => halt

/-- An event, but for line numbers and statements. -/
def Event.blind : Event → Event
  | executing _ _ => executing 0 .stop
  | executed _ _ transfer vars => executed 0 .stop transfer.blind vars

/-- A request, but for line numbers and statements. -/
def Request.blind : Request → Request
  | poll => poll
  | print text => print text
  | input prompt => input prompt
  | trace event => trace event.blind
  | step _ => step 0

namespace Device

variable {σ τ : Type}

/-- No sequences of requests tell two devices apart that are the same but for line numbers and
statements. -/
def Blind (a : Device (StateM (Host σ))) (h : Host σ) (b : Device (StateM (Host τ))) (k : Host τ) :
    Prop :=
  ∀ requests requests', requests'.map Request.blind = requests.map Request.blind →
    b.answers requests' k = a.answers requests h

namespace Blind

variable {a : Device (StateM (Host σ))} {h : Host σ} {b : Device (StateM (Host τ))} {k : Host τ}

theorem same (blind : a.Blind h b k) : a.Same h b k := fun requests => blind requests requests rfl

/-- Blind devices tell the same, and are blind behind it. -/
theorem serve (blind : a.Blind h b k) (request request' : Request)
    (same : request'.blind = request.blind) :
    b.tells request' k = a.tells request h ∧
      a.Blind (a.serve request h).2 b (b.serve request' k).2 :=
  Indistinct.serve a.learns_answers b.learns_answers blind rfl fun rest => by simp [same, rest]

theorem talks : a.Talks b (a.Blind · b ·) := fun request h k talk blind =>
  ⟨(Same.talks request h k talk blind.same).1, (blind.serve request request rfl).2⟩

theorem step (blind : a.Blind h b k) (line line' : LineNumber) :
    (b.step line' k).1 = (a.step line h).1 ∧ a.Blind (a.step line h).2 b (b.step line' k).2 := by
  obtain ⟨one, behind⟩ := blind.serve (.step line) (.step line') rfl
  exact ⟨by simpa [tells] using one, behind⟩

theorem trace (blind : a.Blind h b k) {event event' : Event} (same : event'.blind = event.blind) :
    a.Blind (a.trace event h).2 b (b.trace event' k).2 :=
  (blind.serve (.trace event) (.trace event') (congrArg Request.trace same)).2

/-- Devices are blind when a relation between their hosts is kept by all that they do. -/
theorem of_invariant {R : Host σ → Host τ → Prop}
    (served : ∀ request request' h k, request'.blind = request.blind → R h k →
      b.tells request' k = a.tells request h ∧ R (a.serve request h).2 (b.serve request' k).2)
    (related : R h k) : a.Blind h b k := by
  intro requests
  induction requests generalizing h k with
  | nil =>
    intro requests' same
    rw [List.map_eq_nil_iff.1 same]
    rfl
  | cons request requests ih =>
    intro requests' same
    cases requests' with
    | nil => cases same
    | cons request' requests' =>
      obtain ⟨first, others⟩ := List.cons.inj same
      obtain ⟨one, behind⟩ := served request request' h k first related
      simp only [answers, one, ih behind requests' others]

/-- A device is blind that is not touched by what it is shown, and to which all lines are the same
when it is asked whether to go on. -/
theorem refl (still : ∀ event host, (a.trace event host).2 = host)
    (steps : ∀ line line' host, a.step line' host = a.step line host) (h : Host σ) :
    a.Blind h a h := by
  refine of_invariant (R := (· = ·)) ?_ rfl
  rintro request request' h _ same rfl
  cases request with
  | poll | print | input =>
    cases request' <;> cases same
    exact ⟨rfl, rfl⟩
  | trace event =>
    cases request' with
    | trace event' => exact ⟨rfl, (still event h).trans (still event' h).symm⟩
    | poll | print | input | step => cases same
  | step line =>
    cases request' with
    | step line' =>
      have all := steps line line' h
      exact ⟨by simp only [tells, all], by simp only [Device.serve, all]⟩
    | poll | print | input | trace => cases same

end Blind

end Device

end LineBasic
