import LineBasic.Proofs.Device.Alike

/-!
# Devices that behave the same

All that a run learns from its device are the answers to its requests, also to the question whether
to go on. Two devices, each with its host, behave the same when no sequence of requests tells them
apart (`Device.Same`).

Results:
1. `Same.serve`, `Same.talks`: devices that behave the same tell the same, and behave the same
   behind it.
-/

namespace LineBasic

/-- What a run learns from its host: what the program learns, and whether it is to go on. -/
inductive Answer
  | reply (reply : Reply)
  | go (answer : Except Error Bool)

namespace Device

variable {σ τ : Type}

/-- What a run learns when a request is served. -/
def tells (dev : Device (StateM (Host σ))) : Request → Host σ → List Answer
  | .step line, host => [.go (dev.step line host).1]
  | request, host => (dev.serve request host).1.map .reply

/-- What a run learns from a sequence of requests. -/
def answers (dev : Device (StateM (Host σ))) : List Request → Host σ → List Answer
  | [], _ => []
  | request :: requests, host =>
    dev.tells request host ++ dev.answers requests (dev.serve request host).2

theorem learns_answers (dev : Device (StateM (Host σ))) : dev.Learns dev.tells dev.answers :=
  ⟨fun _ => rfl, fun _ _ _ => rfl⟩

/-- No sequence of requests tells two devices apart. -/
def Same (a : Device (StateM (Host σ))) (h : Host σ) (b : Device (StateM (Host τ))) (k : Host τ) :
    Prop :=
  ∀ requests, b.answers requests k = a.answers requests h

namespace Same

variable {a : Device (StateM (Host σ))} {h : Host σ} {b : Device (StateM (Host τ))} {k : Host τ}

/-- Devices that behave the same tell the same, and behave the same behind it. -/
theorem serve (same : a.Same h b k) (request : Request) :
    b.tells request k = a.tells request h ∧
      a.Same (a.serve request h).2 b (b.serve request k).2 := by
  have indistinct : Indistinct (· = ·) a.answers h b.answers k :=
    fun requests _ equal => equal ▸ same requests
  obtain ⟨one, behind⟩ := indistinct.serve a.learns_answers b.learns_answers rfl (congrArg _)
  exact ⟨one, fun requests => behind requests requests rfl⟩

theorem talks : a.Talks b (a.Same · b ·) := by
  intro request h k talk same
  obtain ⟨one, behind⟩ := same.serve request
  cases request with
  | poll | print | input =>
    exact ⟨List.map_injective_iff.2 (fun _ _ => Answer.reply.inj) one, behind⟩
  | trace | step => cases talk

theorem step (same : a.Same h b k) (line : LineNumber) :
    (b.step line k).1 = (a.step line h).1 ∧ a.Same (a.step line h).2 b (b.step line k).2 := by
  obtain ⟨one, behind⟩ := same.serve (.step line)
  exact ⟨by simpa [tells] using one, behind⟩

theorem trace (same : a.Same h b k) (event : Event) :
    a.Same (a.trace event h).2 b (b.trace event k).2 :=
  (same.serve (.trace event)).2

theorem refl (a : Device (StateM (Host σ))) (h : Host σ) : a.Same h a h := fun _ => rfl

end Same

end Device

end LineBasic
