import RespLoad.Operation
import RespLoad.Settings.Entries

/-!
# Settings

What a run is told to do. `raw` keeps the text of every directive that was accepted, known or not.
-/
namespace RespLoad

/-- What a failed operation means for the rest of the run. -/
inductive FailurePolicy where
  | abort
  | proceed
  deriving Repr, DecidableEq

/-- The settings of a run; the defaults are those of a program called without arguments. -/
structure Settings where
  host : Bytes := utf8 "127.0.0.1"
  port : Int := 6380
  iterations : Nat := 10000
  operations : List Operation := [.ping, .set, .get]
  logLevel : Bytes := utf8 "info"
  /-- Bound on one send or receive in milliseconds; zero waits for ever. -/
  timeoutMs : Int := 0
  clients : Int := 1
  onFailure : FailurePolicy := .abort
  strict : Bool := false
  user : Bytes := []
  password : Bytes := []
  raw : Entries := Entries.empty
  deriving DecidableEq

end RespLoad
