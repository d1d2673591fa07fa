import LineBasic.Proofs.Device.Indistinct

/-!
# Devices that answer alike

A program knows a device by what it answers, and by the interrupts that are asked for while it
answers. Two devices, each with its host, are alike when no sequence of requests tells them apart,
though the second be asked at any time whether to go on (`Device.Alike`). How they answer that
question is left open, and so is what they make of being shown the run.

Results:
1. `Alike.serve`, `Alike.talks`: alike devices give one answer, and are alike behind it.
2. `Alike.of_invariant`: devices are alike when some relation between their hosts is kept.
-/

namespace LineBasic

/-- It is asked whether to go on. -/
def Request.isStep : Request → Bool
  | step _ => true
  | poll | print _ | input _ | trace _ => false

namespace Device

variable {σ τ : Type}

/-- No sequence of requests tells two devices apart, though the second be asked at any time whether
to go on. -/
def Alike (a : Device (StateM (Host σ))) (h : Host σ) (b : Device (StateM (Host τ))) (k : Host τ) :
    Prop :=
  ∀ requests, b.replies requests k = a.replies (requests.filter (!·.isStep)) h

namespace Alike

variable {a : Device (StateM (Host σ))} {h : Host σ} {b : Device (StateM (Host τ))} {k : Host τ}

/-- The first of two alike devices is not asked whether to go on, where the second is. -/
theorem iff_indistinct :
    a.Alike h b k ↔ Indistinct (fun requests requests' => requests = requests'.filter (!·.isStep))
      a.replies h b.replies k :=
  ⟨fun alike _ requests' same => same ▸ alike requests',
    fun indistinct requests => indistinct _ requests rfl⟩

/-- Alike devices give one answer, and are alike behind it. -/
theorem serve (alike : a.Alike h b k) (request : Request) (other : request.isStep = false) :
    (b.serve request k).1 = (a.serve request h).1 ∧
      a.Alike (a.serve request h).2 b (b.serve request k).2 := by
  rw [iff_indistinct] at alike ⊢
  exact alike.serve a.learns_replies b.learns_replies rfl fun same => by simp [other, same]

theorem talks : a.Talks b (a.Alike · b ·) := by
  intro request h k talk alike
  cases request with
  | poll | print | input => exact alike.serve _ rfl
  | trace | step => cases talk

theorem trace (alike : a.Alike h b k) (event : Event) :
    a.Alike (a.trace event h).2 b (b.trace event k).2 :=
  (alike.serve (.trace event) rfl).2

theorem step (alike : a.Alike h b k) (line : LineNumber) : a.Alike h b (b.step line k).2 :=
  fun requests => alike (.step line :: requests)

/-- Devices are alike when a relation between their hosts is kept by all that they do. -/
theorem of_invariant {R : Host σ → Host τ → Prop}
    (served : ∀ request h k, request.isStep = false → R h k →
      (b.serve request k).1 = (a.serve request h).1 ∧
        R (a.serve request h).2 (b.serve request k).2)
    (stepped : ∀ line h k, R h k → R h (b.step line k).2) (related : R h k) : a.Alike h b k := by
  intro requests
  induction requests generalizing h k with
  | nil => rfl
  | cons request requests ih =>
    cases kind : request.isStep with
    | true =>
      cases request with
      | step line => exact ih (stepped line h k related)
      | poll | print | input | trace => cases kind
    | false =>
      obtain ⟨same, behind⟩ := served request h k kind related
      simp [replies, kind, same, ih behind]

/-- A device that is not touched by the question whether to go on is like itself. -/
theorem refl (still : ∀ line host, (a.step line host).2 = host) (h : Host σ) : a.Alike h a h := by
  refine of_invariant (R := (· = ·)) ?_ ?_ rfl
  · rintro request h _ _ rfl
    exact ⟨rfl, rfl⟩
  · rintro line h _ rfl
    exact (still line h).symm

end Alike

end Device

end LineBasic
