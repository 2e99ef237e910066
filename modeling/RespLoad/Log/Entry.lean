import RespLoad.Log.Timestamp

/-!
# The log

A log entry has a level and a message. The program produces all of its entries, whatever the level it
was asked for; the threshold only selects which of them are shown.
-/
namespace RespLoad

/-- Levels of the log, the most severe first. -/
inductive LogLevel where
  | error
  | warn
  | info
  | debug
  deriving Repr, DecidableEq

namespace LogLevel

/-- The position in the order of severity, zero for the most severe. -/
def rank : LogLevel → Nat
  | .error => 0
  | .warn => 1
  | .info => 2
  | .debug => 3

/-- The level as it is shown in the log. -/
def label : LogLevel → Bytes
  | .error => utf8 "ERROR"
  | .warn => utf8 "WARN"
  | .info => utf8 "INFO"
  | .debug => utf8 "DEBUG"

/-- The level of this lower-case name. -/
def ofName? (name : Bytes) : Option LogLevel :=
  if name = utf8 "error" then some .error
  else if name = utf8 "warn" then some .warn
  else if name = utf8 "info" then some .info
  else if name = utf8 "debug" then some .debug
  else none

end LogLevel

/-- A message for the log. -/
structure LogEntry where
  level : LogLevel
  message : Bytes
  deriving Repr, DecidableEq

namespace LogEntry

/-- A threshold lets through what is at least as severe. -/
def isShown (threshold : LogLevel) (entry : LogEntry) : Bool :=
  decide (entry.level.rank ≤ threshold.rank)

/-- The entry without its time. -/
def text (entry : LogEntry) : Bytes :=
  utf8 "[" ++ entry.level.label ++ utf8 "] " ++ entry.message

/-- The entry as a line of the log, written at a time of the wall clock. -/
def line (millis : Int) (entry : LogEntry) : Bytes :=
  utf8 "[" ++ timestamp millis ++ utf8 "] " ++ entry.text ++ [Bytes.lf]

/-- What an entry adds to the log under a threshold. -/
def written (threshold : LogLevel) (millis : Int) (entry : LogEntry) : Bytes :=
  if entry.isShown threshold then entry.line millis else []

end LogEntry

end RespLoad
