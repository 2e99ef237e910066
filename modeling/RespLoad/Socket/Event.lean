import RespLoad.Socket.Script

/-!
# Events

The system calls on one socket, in order and with their outcomes. A trace is what an observer of one
connection sees in the end.
-/
namespace RespLoad

/-- A system call on a socket. A call that sets the socket up carries its failure, if it failed. -/
inductive Event where
  | socket (failure : Option Errno)
  | receiveTimeout (micros : Int) (failure : Option Errno)
  | sendTimeout (micros : Int) (failure : Option Errno)
  | connect (address : Address) (port : Nat) (failure : Option Errno)
  | noDelay (failure : Option Errno)
  | send (offered : Bytes) (outcome : SendOutcome)
  | receive (outcome : ReadOutcome)
  | close
  deriving Repr, DecidableEq

namespace Event

/-- The failure of a call that sets a socket up. -/
def failure? : Event → Option Errno
  | .socket failure => failure
  | .receiveTimeout _ failure => failure
  | .sendTimeout _ failure => failure
  | .connect _ _ failure => failure
  | .noDelay failure => failure
  | .send _ _ | .receive _ | .close => none

/-- The bytes that a call handed over. -/
def accepted : Event → Bytes
  | .send offered (.accept count) => offered.take count
  | _ => []

/-- Where a call connects to, successfully or not. -/
def destination? : Event → Option (Address × Nat)
  | .connect address port _ => some (address, port)
  | _ => none

/-- The bound on receiving that a call sets. -/
def receiveTimeout? : Event → Option Int
  | .receiveTimeout micros none => some micros
  | _ => none

/-- The bound on sending that a call sets. -/
def sendTimeout? : Event → Option Int
  | .sendTimeout micros none => some micros
  | _ => none

def isReceive : Event → Bool
  | .receive _ => true
  | _ => false

end Event

/-- One connection as an observer sees it. -/
structure Trace where
  destination : Option (Address × Nat)
  receiveTimeout : Option Int
  sendTimeout : Option Int
  noDelay : Bool
  sent : Bytes
  reads : Nat
  closes : Nat
  deriving Repr, DecidableEq

/-- The trace that a sequence of calls leaves. -/
def Trace.ofEvents (events : List Event) : Trace where
  destination := events.findSome? Event.destination?
  receiveTimeout := events.findSome? Event.receiveTimeout?
  sendTimeout := events.findSome? Event.sendTimeout?
  noDelay := events.contains (.noDelay none)
  sent := events.flatMap Event.accepted
  reads := events.countP Event.isReceive
  closes := events.count .close

end RespLoad
