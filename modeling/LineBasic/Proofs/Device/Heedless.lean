import LineBasic.Proofs.Device.Indistinct

/-!
# Devices that take no heed of what they are shown

Two devices, each with its host, are `Heedless` when no sequences of requests tell them apart that
are the same but for what is shown. A device is `Quiet` if it never asks for an interrupt; then a
look for one changes nothing.

Results:
1. `Heedless.serve`, `Heedless.trace`: heedless devices give one answer, and remain heedless.
2. `Heedless.talks`, `Quiet.talks`: to a program they talk alike.
3. `Heedless.refl`, `Quiet.of_invariant`: when devices are heedless, and quiet.
-/

namespace LineBasic

/-- Something is shown. -/
def Request.isTrace : Request → Bool
  | trace _ => true
  | poll | print _ | input _ | step _ => false

namespace Device

variable {σ τ : Type}

/-- No sequences of requests tell two devices apart that are the same but for what is shown. -/
def Heedless (a : Device (StateM (Host σ))) (h : Host σ) (b : Device (StateM (Host τ)))
    (k : Host τ) : Prop :=
  ∀ requests requests',
    requests'.filter (!·.isTrace) = requests.filter (!·.isTrace) →
    b.replies requests' k = a.replies requests h

/-- No sequence of requests brings about an interrupt. -/
def Quiet (a : Device (StateM (Host σ))) (h : Host σ) : Prop :=
  ∀ requests, .polled true ∉ a.replies requests h

namespace Heedless

variable {a : Device (StateM (Host σ))} {h : Host σ} {b : Device (StateM (Host τ))} {k : Host τ}

/-- Heedless devices give one answer, and are heedless behind it. -/
theorem serve (heedless : a.Heedless h b k) (request : Request) (other : request.isTrace = false) :
    (b.serve request k).1 = (a.serve request h).1 ∧
      a.Heedless (a.serve request h).2 b (b.serve request k).2 :=
  Indistinct.serve a.learns_replies b.learns_replies heedless rfl fun rest => by simp [other, rest]

theorem talks : a.Talks b (a.Heedless · b ·) := by
  intro request h k talk heedless
  cases request with
  | poll | print | input => exact heedless.serve _ rfl
  | trace | step => cases talk

theorem trace (heedless : a.Heedless h b k) (event event' : Event) :
    a.Heedless (a.trace event h).2 b (b.trace event' k).2 :=
  fun requests requests' same => heedless (.trace event :: requests) (.trace event' :: requests') same

/-- The second device may be shown something that the first is not shown. -/
theorem trace_right (heedless : a.Heedless h b k) (event : Event) :
    a.Heedless h b (b.trace event k).2 :=
  fun requests requests' same => heedless requests (.trace event :: requests') same

/-- A device that is not touched by what it is shown takes no heed of it. -/
theorem refl (still : ∀ event host, (a.trace event host).2 = host) (h : Host σ) :
    a.Heedless h a h := by
  have without (requests : List Request) (h : Host σ) :
      a.replies requests h = a.replies (requests.filter (!·.isTrace)) h := by
    induction requests generalizing h with
    | nil => rfl
    | cons request requests ih =>
      cases request with
      | trace event => simp [replies, Device.serve, Request.isTrace, still, ih]
      | poll | print | input | step => simp [replies, Request.isTrace, ih]
  intro requests requests' same
  rw [without, same, ← without]

end Heedless

namespace Quiet

variable {a : Device (StateM (Host σ))} {h : Host σ}

theorem serve (quiet : a.Quiet h) (request : Request) : a.Quiet (a.serve request h).2 :=
  fun requests set => quiet (request :: requests) (List.mem_append_right _ set)

/-- Heedless devices of which the first is quiet talk alike, and it stays quiet. -/
theorem talks {b : Device (StateM (Host τ))} :
    a.Talks b fun h k => a.Heedless h b k ∧ a.Quiet h := fun request h k talk related =>
  have ⟨one, behind⟩ := Heedless.talks request h k talk related.1
  ⟨one, behind, related.2.serve request⟩

theorem clear (quiet : a.Quiet h) : h.interrupted = false := by
  have never := quiet [.poll]
  simpa [replies, Device.serve] using never

/-- A device is quiet when what it does keeps its host from being interrupted. -/
theorem of_invariant {P : Host σ → Prop} (clear : ∀ h, P h → h.interrupted = false)
    (served : ∀ request h, P h → P (a.serve request h).2) (holds : P h) : a.Quiet h := by
  intro requests
  induction requests generalizing h with
  | nil => exact nofun
  | cons request requests ih =>
    intro set
    rcases List.mem_append.1 set with now | later
    · cases request with
      | poll => simp [Device.serve, clear h holds] at now
      | print | input | trace | step => simp [Device.serve] at now
    · exact ih (served request h holds) later

end Quiet

end Device

end LineBasic
