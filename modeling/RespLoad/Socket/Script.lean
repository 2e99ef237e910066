import RespLoad.Clock
import RespLoad.Socket.Endpoint

/-!
# Scripts

A script says how the world answers one connection: the lookup, the calls that set the socket up, and
one outcome after the other for sending and for reading. Programs that talk to a server are functions
of a script, so their behaviour is determined by it.
-/
namespace RespLoad

/-- What one send does: it accepts some number of the bytes offered, or it fails. -/
inductive SendOutcome where
  | accept (count : Nat)
  | fail (errno : Errno)
  deriving Repr, DecidableEq

/-- What one read brings: data, where no data means that the server has closed, or a failure. -/
inductive ReadOutcome where
  | data (bytes : Bytes)
  | fail (errno : Errno)
  deriving Repr, DecidableEq

/-- An outcome that repeats for ever. A read that is interrupted for ever would never return, and is
no such outcome. -/
structure LastingOutcome where
  outcome : ReadOutcome
  settled : outcome ≠ .fail .interrupted
  deriving DecidableEq

/-- The server has closed, and every read says so. -/
def LastingOutcome.closed : LastingOutcome := ⟨.data [], by decide⟩

/-- The future of a connected socket: the outcomes of sending and of reading. When the outcomes of
sending are used up, everything is accepted; when those of reading are, the lasting one repeats. -/
structure Peer where
  sends : List SendOutcome := []
  reads : List ReadOutcome := []
  lasting : LastingOutcome := LastingOutcome.closed
  deriving DecidableEq

/-- The calls that fail while a socket is set up. -/
structure Faults where
  socket : Option Errno := none
  receiveTimeout : Option Errno := none
  sendTimeout : Option Errno := none
  connect : Option Errno := none
  noDelay : Option Errno := none
  deriving Repr, DecidableEq

/-- How the world answers one connection. -/
structure Script where
  lookup : Except LookupFailure Address := .error .unknownName
  faults : Faults := {}
  peer : Peer := {}
  /-- The clock of a client that has this connection to itself. -/
  clock : Clock := Clock.steady

/-- The answer of a host where nobody listens. -/
def Script.refused : Script := { faults := { connect := some .connectionRefused } }

end RespLoad
