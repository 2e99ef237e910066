import RespLoad.Connection.Transfer
import RespLoad.Log.Entry
import RespLoad.Reply

/-!
# Dialling

Opening a connection resolves the host, sets a socket up, connects it and, if there is a password,
authenticates. Whatever fails after the socket exists, the socket is closed again.
-/
namespace RespLoad

/-- Why a connection was not opened. -/
inductive OpenError where
  | lookup (endpoint : Endpoint) (cause : LookupFailure)
  | call (endpoint : Endpoint) (cause : CallFailure)
  | authFailed (cause : IoError)
  | authRejected (endpoint : Endpoint) (reason : Bytes)
  deriving Repr, DecidableEq

def OpenError.message : OpenError → Bytes
  | .lookup endpoint cause =>
    endpoint.unreachable (utf8 "cannot resolve host: " ++ cause.text)
  | .call endpoint cause => endpoint.unreachable cause.message
  | .authFailed cause => utf8 "AUTH failed: " ++ cause.message
  | .authRejected endpoint reason =>
    utf8 "AUTH rejected by " ++ endpoint.text ++ utf8 ": " ++
      (if reason.isEmpty then utf8 "connection closed" else reason)

namespace Target

/-- The calls that set a socket up, in order, each with the name it has in messages. -/
def preparations (target : Target) (address : Address) (faults : Faults) : List (Event × Bytes) :=
  let micros := target.timeoutMs * 1000
  let timeouts :=
    if 0 < target.timeoutMs then
      [(.receiveTimeout micros faults.receiveTimeout, utf8 "setsockopt(SO_RCVTIMEO)"),
        (.sendTimeout micros faults.sendTimeout, utf8 "setsockopt(SO_RCVTIMEO)")]
    else []
  (.socket faults.socket, utf8 "socket()") :: timeouts ++
    [(.connect address target.endpoint.wirePort faults.connect, utf8 "connect()")]

/-- The command that authenticates, with the user's name if there is one. -/
def authCommand (target : Target) : Command :=
  if target.user.isEmpty then [utf8 "AUTH", target.password]
  else [utf8 "AUTH", target.user, target.password]

end Target

/-- The calls up to the first that fails, and that failure. -/
def upToFailure : List (Event × Bytes) → List Event × Option CallFailure
  | [] => ([], none)
  | (event, call) :: more =>
    match event.failure? with
    | some errno => ([event], some ⟨call, errno⟩)
    | none =>
      let (events, failure) := upToFailure more
      (event :: events, failure)

/-- A socket exists once the call that makes it has succeeded. -/
def closeIfMade : List Event → List Event
  | .socket none :: _ => [.close]
  | _ => []

/-- The outcome of dialling: a connected peer or an error, with the calls made and the log. -/
structure Dialled where
  result : Except OpenError Peer
  events : List Event
  log : List LogEntry

/-- The reason in a reply that rejects the credentials: its text without line ends at its end. -/
def rejection (reply : Bytes) : Bytes :=
  Bytes.dropTail (fun b => b == Bytes.lf || b == Bytes.cr) (Utf8.decode reply)

/-- Authenticates on a connected socket. Only a simple string accepts the credentials. -/
def Target.authenticate (target : Target) (peer : Peer) : Except OpenError Peer × List Event :=
  let answer := peer.roundTrip target.authCommand
  match answer.result with
  | .error cause => (.error (.authFailed cause), answer.events)
  | .ok reply =>
    if ReplyKind.ofBytes reply = .simpleString then (.ok answer.peer, answer.events)
    else (.error (.authRejected target.endpoint (rejection reply)), answer.events)

/-- What is logged when a socket has been connected. -/
def Target.connectedLog (target : Target) (noDelay : Option Errno) : List LogEntry :=
  let warning := noDelay.map fun errno =>
    ⟨.warn, CallFailure.message ⟨utf8 "setsockopt(TCP_NODELAY)", errno⟩⟩
  warning.toList ++ [⟨.debug, utf8 "connected to " ++ target.endpoint.text⟩]

/-- The first step of a connection once its socket is connected. -/
def Target.greet (target : Target) (script : Script) : Except OpenError Peer × List Event :=
  if target.password.isEmpty then (.ok script.peer, []) else target.authenticate script.peer

/-- Opens a connection. -/
def Target.dial (target : Target) (script : Script) : Dialled :=
  match target.endpoint.resolve script.lookup with
  | .error cause => ⟨.error (.lookup target.endpoint cause), [], []⟩
  | .ok address =>
    match upToFailure (target.preparations address script.faults) with
    | (events, some cause) =>
      ⟨.error (.call target.endpoint cause), events ++ closeIfMade events, []⟩
    | (events, none) =>
      let connected := events ++ [.noDelay script.faults.noDelay]
      let log := target.connectedLog script.faults.noDelay
      match target.greet script with
      | (.error cause, talk) => ⟨.error cause, connected ++ talk ++ [.close], log⟩
      | (.ok peer, talk) => ⟨.ok peer, connected ++ talk, log⟩

end RespLoad
