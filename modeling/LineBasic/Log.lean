import LineBasic.Device

/-!
# The log

What happens to a program and its runs is noted in a log, apart from what the user sees. A log keeps
the records up to a level; the records of higher levels are dropped.
-/

namespace LineBasic

/-- How much a log keeps. -/
inductive Level
  | warning
  | debug
  | trace
  deriving DecidableEq, Repr

/-- Levels by how much they keep. -/
def Level.rank : Level → Nat
  | warning => 0
  | debug => 1
  | trace => 2

/-- What is noted. -/
inductive Record
  | stored (line : LineNumber)
  | removed (line : LineNumber)
  | cleared
  | runStarted (mode : Mode)
  | runFinished
  | runAborted (error : Error)
  | executing (line : LineNumber) (statement : Statement)
  | traceFailed (reason : String)
  | loaded (file : String)
  | saved (file : String)
  deriving DecidableEq, Repr

namespace Record

/-- The level from which on a record is kept. -/
def level : Record → Level
  | executing .. => .trace
  | traceFailed _ => .warning
  | _ => .debug

/-- A record in writing. -/
def text : Record → String
  | stored line => "line " ++ toString line ++ " stored"
  | removed line => "line " ++ toString line ++ " removed"
  | cleared => "program cleared"
  | runStarted .run => "run started (Run)"
  | runStarted .step => "run started (Step)"
  | runFinished => "run finished"
  | runAborted error => "run aborted: " ++ error.text
  | executing line statement => toString line ++ ": " ++ statement.text
  | traceFailed reason => "trace output failed: " ++ reason
  | loaded file => "loaded " ++ file
  | saved file => "saved " ++ file

end Record

/-- The records kept so far, the latest first. -/
structure Log where
  level : Level
  latestFirst : List Record
  deriving DecidableEq, Repr

namespace Log

/-- A log without records. -/
def new (level : Level) : Log := ⟨level, []⟩

/-- With one more record, if it is kept. -/
def add (log : Log) (record : Record) : Log :=
  if record.level.rank ≤ log.level.rank then { log with latestFirst := record :: log.latestFirst }
  else log

/-- With some more records. -/
def addAll (log : Log) (records : List Record) : Log := records.foldl add log

/-- The records in the order they were made. -/
def records (log : Log) : List Record := log.latestFirst.reverse

end Log

end LineBasic
