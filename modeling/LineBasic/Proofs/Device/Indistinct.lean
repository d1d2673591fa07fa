import LineBasic.Device
import Mathlib

/-!
# Requests that tell devices apart

A run knows its device by what it learns from its requests, one after the other, each of them served
by the host that those before it have left behind (`Device.Learns`). Two devices, each with its host,
are indistinct when no two sequences of requests tell them apart that match (`Device.Indistinct`).
Which sequences match says what makes no difference, and is left open here.

What a program asks for by itself is a look for an interrupt, a line of output or a line of input.
Devices that answer these in the same way talk alike (`Device.Talks`), whatever relation between
their hosts it is that they keep.

Results:
1. `Indistinct.serve`: indistinct devices tell the same, and are indistinct behind it.
2. `Talks.poll`, `Talks.print`, `Talks.input`: the answers of devices that talk alike.
-/

namespace LineBasic

/-- What a run asks of its host. -/
inductive Request
  | poll
  | print (text : String)
  | input (prompt : String)
  | trace (event : Event)
  | step (line : LineNumber)

/-- The program is answered. -/
def Request.isTalk : Request → Bool
  | poll | print _ | input _ => true
  | trace _ | step _ => false

/-- What a program learns from its host. -/
inductive Reply
  | polled (set : Bool)
  | printed (answer : Except Error Unit)
  | read (answer : Except Error String)

namespace Device

variable {α σ τ : Type}

/-- Serves a request, with a reply or without one: whether the run is to go on is nothing that the
program learns, nor is what becomes of an event. -/
def serve (dev : Device (StateM (Host σ))) : Request → Host σ → List Reply × Host σ
  | .poll, host => ([.polled host.interrupted], { host with interrupted := false })
  | .print text, host => ([.printed (dev.print text host).1], (dev.print text host).2)
  | .input prompt, host => ([.read (dev.input prompt host).1], (dev.input prompt host).2)
  | .trace event, host => ([], (dev.trace event host).2)
  | .step line, host => ([], (dev.step line host).2)

/-- The replies to a sequence of requests. -/
def replies (dev : Device (StateM (Host σ))) : List Request → Host σ → List Reply
  | [], _ => []
  | request :: requests, host =>
    (dev.serve request host).1 ++ dev.replies requests (dev.serve request host).2

/-! ## Indistinct devices -/

/-- What is learned from a sequence of requests is what each of them tells in its turn. -/
structure Learns (dev : Device (StateM (Host σ))) (tell : Request → Host σ → List α)
    (learn : List Request → Host σ → List α) : Prop where
  nil (host : Host σ) : learn [] host = []
  cons (request : Request) (requests : List Request) (host : Host σ) :
    learn (request :: requests) host =
      tell request host ++ learn requests (dev.serve request host).2

theorem learns_replies (dev : Device (StateM (Host σ))) :
    dev.Learns (fun request host => (dev.serve request host).1) dev.replies :=
  ⟨fun _ => rfl, fun _ _ _ => rfl⟩

/-- No two sequences of requests that match tell two devices apart, each with its host. -/
def Indistinct (Matches : List Request → List Request → Prop)
    (learn : List Request → Host σ → List α) (h : Host σ)
    (learn' : List Request → Host τ → List α) (k : Host τ) : Prop :=
  ∀ requests requests', Matches requests requests' → learn' requests' k = learn requests h

variable {a : Device (StateM (Host σ))} {b : Device (StateM (Host τ))} {h : Host σ} {k : Host τ}

/-- Requests in front of sequences that match tell the same if the longer sequences match as well,
and indistinct devices remain so behind them. -/
theorem Indistinct.serve {Matches : List Request → List Request → Prop}
    {tell : Request → Host σ → List α} {learn : List Request → Host σ → List α}
    {tell' : Request → Host τ → List α} {learn' : List Request → Host τ → List α}
    (left : a.Learns tell learn) (right : b.Learns tell' learn')
    (indistinct : Indistinct Matches learn h learn' k) {request request' : Request}
    (nil : Matches [] [])
    (cons : ∀ {requests requests'}, Matches requests requests' →
      Matches (request :: requests) (request' :: requests')) :
    tell' request' k = tell request h ∧
      Indistinct Matches learn (a.serve request h).2 learn' (b.serve request' k).2 := by
  have one : tell' request' k = tell request h := by
    have same := indistinct _ _ (cons nil)
    simpa only [left.cons, right.cons, left.nil, right.nil, List.append_nil] using same
  refine ⟨one, fun requests requests' rest => ?_⟩
  have same := indistinct _ _ (cons rest)
  rwa [left.cons, right.cons, one, List.append_right_inj] at same

/-! ## Devices that talk alike -/

/-- Two devices answer a program in the same way, and a relation between their hosts is kept. -/
def Talks (a : Device (StateM (Host σ))) (b : Device (StateM (Host τ)))
    (R : Host σ → Host τ → Prop) : Prop :=
  ∀ request h k, request.isTalk → R h k →
    (b.serve request k).1 = (a.serve request h).1 ∧
      R (a.serve request h).2 (b.serve request k).2

namespace Talks

variable {R : Host σ → Host τ → Prop} (talks : a.Talks b R) (related : R h k)

include talks related

theorem poll :
    k.interrupted = h.interrupted ∧
      R { h with interrupted := false } { k with interrupted := false } := by
  obtain ⟨same, behind⟩ := talks .poll h k rfl related
  exact ⟨by simpa [serve] using same, behind⟩

theorem print (text : String) :
    (b.print text k).1 = (a.print text h).1 ∧ R (a.print text h).2 (b.print text k).2 := by
  obtain ⟨same, behind⟩ := talks (.print text) h k rfl related
  exact ⟨by simpa [serve] using same, behind⟩

theorem input (prompt : String) :
    (b.input prompt k).1 = (a.input prompt h).1 ∧
      R (a.input prompt h).2 (b.input prompt k).2 := by
  obtain ⟨same, behind⟩ := talks (.input prompt) h k rfl related
  exact ⟨by simpa [serve] using same, behind⟩

end Talks

end Device

end LineBasic
