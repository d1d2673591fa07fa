import LineBasic.Device.Journal
import Mathlib

/-!
# What the calls of a run tell

A run is known by its calls. Here they are told apart: those in which the program speaks or listens,
those that show an event, and those that ask whether to go on.
-/

namespace LineBasic

namespace Call

/-- The program speaks or listens. -/
def isTalk : Call → Bool
  | printed .. | asked .. => true
  | stepped .. | traced .. => false

/-- The event that is shown. -/
def event? : Call → Option Event
  | traced event _ => some event
  | printed .. | asked .. | stepped .. => none

/-- The line behind which it is asked whether to go on, with the answer. -/
def step? : Call → Option (LineNumber × Except Error Bool)
  | stepped line answer => some (line, answer)
  | printed .. | asked .. | traced .. => none

/-- The error with which the device answers. -/
def error? : Call → Option Error
  | printed _ (.error e) | asked _ (.error e) | stepped _ (.error e) => some e
  | printed _ (.ok _) | asked _ (.ok _) | stepped _ (.ok _) | traced .. => none

/-- The answer is one that a device gave. -/
def Of {σ : Type} (dev : Device (StateM (Host σ))) : Call → Prop
  | printed text answer => ∃ host, (dev.print text host).1 = answer
  | asked prompt answer => ∃ host, (dev.input prompt host).1 = answer
  | stepped line answer => ∃ host, (dev.step line host).1 = answer
  | traced event answer => ∃ host, (dev.trace event host).1 = answer

variable {call : Call}

theorem event?_of_isTalk (talk : call.isTalk) : call.event? = none := by
  cases call with
  | printed | asked => rfl
  | stepped | traced => cases talk

theorem step?_of_isTalk (talk : call.isTalk) : call.step? = none := by
  cases call with
  | printed | asked => rfl
  | stepped | traced => cases talk

end Call

/-- The events that are shown by some calls. -/
def eventsOf (calls : List Call) : List Event := calls.filterMap Call.event?

/-- The questions whether to go on, among some calls. -/
def stepsIn (calls : List Call) : List (LineNumber × Except Error Bool) :=
  calls.filterMap Call.step?

end LineBasic
