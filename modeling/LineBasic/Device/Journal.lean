import LineBasic.Device

/-!
# The journal of a run

`Device.journaled` makes a device that behaves as the one it is made from and writes down every call
with its answer, the latest first. The journal shows all that a run did to the world outside.
-/

namespace LineBasic

/-- A call of a device, with its answer. -/
inductive Call
  | printed (text : String) (answer : Except Error Unit)
  | asked (prompt : String) (answer : Except Error String)
  | stepped (line : LineNumber) (answer : Except Error Bool)
  | traced (event : Event) (answer : Except String Unit)

namespace Device

variable {m : Type → Type} [Monad m]

/-- Carries out an action and writes down the call that it was. -/
def write {α : Type} (action : m α) (call : α → Call) : StateT (List Call) m α := fun journal => do
  let answer ← action
  return (answer, call answer :: journal)

/-- The device that keeps a journal. -/
def journaled (dev : Device m) : Device (StateT (List Call) m) where
  print text := write (dev.print text) (.printed text)
  input prompt := write (dev.input prompt) (.asked prompt)
  step line := write (dev.step line) (.stepped line)
  trace event := write (dev.trace event) (.traced event)

end Device

end LineBasic
