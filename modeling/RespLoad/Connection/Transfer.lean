import RespLoad.Socket.Event
import RespLoad.Wire.Command

/-!
# Transfer over a socket

Sending offers what is not yet accepted until everything is, and reading takes one bounded read. Both
begin again when they are interrupted. An outcome that says the call would block means here that the
socket's time bound has passed.
-/
namespace RespLoad

/-- Why bytes were not transferred. -/
inductive IoError where
  | sendOnClosed
  | readOnClosed
  | sendTimedOut
  | readTimedOut
  | failed (cause : CallFailure)
  deriving Repr, DecidableEq

namespace IoError

def message : IoError → Bytes
  | .sendOnClosed => utf8 "send on closed connection"
  | .readOnClosed => utf8 "read on closed connection"
  | .sendTimedOut => utf8 "send timed out"
  | .readTimedOut => utf8 "read timed out"
  | .failed cause => cause.message

def ofSend (errno : Errno) : IoError :=
  if errno = .wouldBlock then .sendTimedOut else .failed ⟨utf8 "send()", errno⟩

def ofRead (errno : Errno) : IoError :=
  if errno = .wouldBlock then .readTimedOut else .failed ⟨utf8 "recv()", errno⟩

end IoError

/-- What sending came to, and the outcomes that are left. -/
structure Sent where
  result : Except IoError Unit
  events : List Event
  unused : List SendOutcome

/-- The same after one call more at the front. -/
def Sent.after (event : Event) (sent : Sent) : Sent := { sent with events := event :: sent.events }

/-- Sends all of a payload. -/
def sendAll (payload : Bytes) : List SendOutcome → Sent
  | [] =>
    let events := if payload.isEmpty then [] else [.send payload (.accept payload.length)]
    ⟨.ok (), events, []⟩
  | outcome :: more =>
    if payload.isEmpty then ⟨.ok (), [], outcome :: more⟩
    else match outcome with
      | .accept count =>
        (sendAll (payload.drop count) more).after
          (.send payload (.accept (min count payload.length)))
      | .fail errno =>
        let event := .send payload (.fail errno)
        if errno = .interrupted then (sendAll payload more).after event
        else ⟨.error (IoError.ofSend errno), [event], more⟩

/-- The most bytes that one read takes. -/
def readLimit : Nat := 1024

/-- What reading came to, and the outcomes that are left. -/
structure Received where
  result : Except IoError Bytes
  events : List Event
  unused : List ReadOutcome

/-- The same after one call more at the front. -/
def Received.after (event : Event) (received : Received) : Received :=
  { received with events := event :: received.events }

/-- One read that is not interrupted. Data beyond the limit is left for the next read. -/
def deliver (outcome : ReadOutcome) (more : List ReadOutcome) : Received :=
  match outcome with
  | .data bytes =>
    let beyond := bytes.drop readLimit
    { result := .ok (bytes.take readLimit)
      events := [.receive (.data (bytes.take readLimit))]
      unused := if beyond.isEmpty then more else .data beyond :: more }
  | .fail errno => ⟨.error (IoError.ofRead errno), [.receive (.fail errno)], more⟩

/-- Reads once, again and again while the read is interrupted. -/
def receive (lasting : LastingOutcome) : List ReadOutcome → Received
  | [] => deliver lasting.outcome []
  | outcome :: more =>
    if outcome = .fail .interrupted then (receive lasting more).after (.receive outcome)
    else deliver outcome more

/-- A stretch of calls on one connected socket. -/
structure Stretch (α : Type) where
  result : Except IoError α
  events : List Event
  peer : Peer

namespace Peer

/-- Sends all of a payload to the peer. -/
def send (peer : Peer) (payload : Bytes) : Stretch Unit :=
  let sent := sendAll payload peer.sends
  ⟨sent.result, sent.events, { peer with sends := sent.unused }⟩

/-- Reads once from the peer. -/
def read (peer : Peer) : Stretch Bytes :=
  let received := receive peer.lasting peer.reads
  ⟨received.result, received.events, { peer with reads := received.unused }⟩

/-- Sends a command and reads once. -/
def roundTrip (peer : Peer) (command : Command) : Stretch Bytes :=
  let sent := peer.send command.encode
  match sent.result with
  | .error cause => ⟨.error cause, sent.events, sent.peer⟩
  | .ok () =>
    let received := sent.peer.read
    { received with events := sent.events ++ received.events }

end Peer

end RespLoad
