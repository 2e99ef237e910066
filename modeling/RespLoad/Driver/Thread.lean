import RespLoad.Driver.Client

/-!
# A client as a thread

The same client as in `Target.runClient`, one call at a time, so that the calls of several clients can
be interleaved. A thread dials, counts itself at the start gate, waits there, and runs its iterations
when the gate lets it. Each step makes at most one call on the thread's own socket and touches no state
but the thread's own; what happens at the gate is left to the module on the start gate.
-/
namespace RespLoad

namespace Peer

/-- What one send on a peer does. -/
def sendOnce (peer : Peer) (payload : Bytes) : SendOutcome × Peer :=
  match peer.sends with
  | [] => (.accept payload.length, peer)
  | .accept count :: more => (.accept (min count payload.length), { peer with sends := more })
  | .fail errno :: more => (.fail errno, { peer with sends := more })

/-- What one read of a peer brings. -/
def readOnce (peer : Peer) : ReadOutcome × Peer :=
  let (outcome, more) :=
    match peer.reads with
    | [] => (peer.lasting.outcome, [])
    | outcome :: more => (outcome, more)
  match outcome with
  | .fail errno => (.fail errno, { peer with reads := more })
  | .data bytes =>
    let beyond := bytes.drop readLimit
    (.data (bytes.take readLimit),
      { peer with reads := if beyond.isEmpty then more else .data beyond :: more })

end Peer

/-- What a client is to do, and how the world will answer it. -/
structure Job where
  target : Target
  operation : Operation
  slice : Slice
  script : Script

/-- What is sent for: the first step of a connection, or an iteration and the time of its start. -/
inductive Purpose where
  | greeting
  | iteration (index : Nat) (started : Int)
  deriving Repr, DecidableEq

/-- Where a client stands: the next thing that it does. -/
inductive Stage where
  /-- Resolves the host. -/
  | resolving
  /-- Makes the first of these calls. -/
  | preparing (calls : List (Event × Bytes))
  /-- Turns off the delay of small packets on the connected socket. -/
  | tuning
  /-- Sends what is not yet accepted, or reads once when all is. -/
  | talking (purpose : Purpose) (unsent : Bytes)
  /-- Closes a socket that will not be used. -/
  | dropping (cause : OpenError)
  /-- Counts itself at the gate. -/
  | arriving (failure : Option OpenError)
  /-- Waits at the gate. -/
  | waiting (failure : Option OpenError)
  /-- Begins the iteration of this index, or leaves behind the last one. -/
  | looping (index : Nat)
  /-- Closes its socket. -/
  | leaving (failure : Option IterationError)
  | ended (failure : Option ClientError)
  deriving Repr, DecidableEq

/-- A client on its way. -/
structure Thread where
  stage : Stage
  peer : Peer
  clock : Clock
  events : List Event := []
  exchanges : List Exchange := []
  /-- What was logged while dialling. -/
  log : List LogEntry := []

namespace Thread

/-- A client that has just been started. -/
def start (job : Job) : Thread where
  stage := .resolving
  peer := job.script.peer
  clock := job.script.clock

/-- The thread at another stage. -/
def goTo (thread : Thread) (stage : Stage) : Thread := { thread with stage := stage }

/-- The thread after one more call. -/
def called (thread : Thread) (event : Event) : Thread :=
  { thread with events := thread.events ++ [event] }

def isEnded (thread : Thread) : Bool :=
  match thread.stage with
  | .ended _ => true
  | _ => false

/-- The failure of a thread that has ended. -/
def failure? (thread : Thread) : Option ClientError :=
  match thread.stage with
  | .ended failure => failure
  | _ => none

/-- What a thread that has ended came to. -/
def result (thread : Thread) (operation : Operation) : ClientRun where
  failure := thread.failure?
  exchanges := thread.exchanges
  events := thread.events
  log := thread.log ++ Exchange.warnings operation thread.exchanges

/-- The stage behind a transfer that failed. -/
def afterFailure (job : Job) (purpose : Purpose) (cause : IoError) : Stage :=
  match purpose with
  | .greeting => .dropping (.authFailed cause)
  | .iteration index _ => .leaving (some ⟨job.operation, index, cause⟩)

/-- The thread once a reply has been read. -/
def answered (job : Job) (thread : Thread) (purpose : Purpose) (reply : Bytes) : Thread :=
  match purpose with
  | .greeting =>
    if ReplyKind.ofBytes reply = .simpleString then thread.goTo (.arriving none)
    else thread.goTo (.dropping (.authRejected job.target.endpoint (rejection reply)))
  | .iteration index started =>
    let (ended, clock) := thread.clock.read
    { thread with
      stage := .looping (index + 1)
      clock := clock
      exchanges := thread.exchanges ++ [⟨index, started, ended, reply⟩] }

/-- One send. -/
def stepSend (job : Job) (thread : Thread) (purpose : Purpose) (unsent : Bytes) : Thread :=
  let (outcome, peer) := thread.peer.sendOnce unsent
  let after := { thread with peer := peer }.called (.send unsent outcome)
  match outcome with
  | .accept count => after.goTo (.talking purpose (unsent.drop count))
  | .fail errno =>
    if errno = .interrupted then after
    else after.goTo (afterFailure job purpose (IoError.ofSend errno))

/-- One read. -/
def stepRead (job : Job) (thread : Thread) (purpose : Purpose) : Thread :=
  let (outcome, peer) := thread.peer.readOnce
  let after := { thread with peer := peer }.called (.receive outcome)
  match outcome with
  | .data reply => after.answered job purpose reply
  | .fail errno =>
    if errno = .interrupted then after
    else after.goTo (afterFailure job purpose (IoError.ofRead errno))

/-- One step away from the gate. -/
def step (job : Job) (thread : Thread) : Thread :=
  let endpoint := job.target.endpoint
  match thread.stage with
  | .resolving =>
    match endpoint.resolve job.script.lookup with
    | .error cause => thread.goTo (.arriving (some (.lookup endpoint cause)))
    | .ok address =>
      thread.goTo (.preparing (job.target.preparations address job.script.faults))
  | .preparing [] => thread.goTo .tuning
  | .preparing ((event, call) :: more) =>
    let after := thread.called event
    match event.failure? with
    | none => after.goTo (.preparing more)
    | some errno =>
      let cause := .call endpoint ⟨call, errno⟩
      if (closeIfMade after.events).isEmpty then after.goTo (.arriving (some cause))
      else after.goTo (.dropping cause)
  | .tuning =>
    let after :=
      { thread.called (.noDelay job.script.faults.noDelay) with
        log := job.target.connectedLog job.script.faults.noDelay }
    if job.target.password.isEmpty then after.goTo (.arriving none)
    else after.goTo (.talking .greeting job.target.authCommand.encode)
  | .talking purpose unsent =>
    if unsent.isEmpty then thread.stepRead job purpose else thread.stepSend job purpose unsent
  | .dropping cause => (thread.called .close).goTo (.arriving (some cause))
  | .looping index =>
    if index < job.slice.first + job.slice.count then
      let (started, clock) := thread.clock.read
      { thread with
        stage := .talking (.iteration index started) (job.operation.command index).encode
        clock := clock }
    else thread.goTo (.leaving none)
  | .leaving failure => (thread.called .close).goTo (.ended (failure.map .iteration))
  | .arriving _ | .waiting _ | .ended _ => thread

/-- What a thread does once the gate is open: it runs its iterations if it is connected and nothing was
cancelled. -/
def released (job : Job) (thread : Thread) (failure : Option OpenError) (cancelled : Bool) : Thread :=
  match failure with
  | some cause => thread.goTo (.ended (some (.connection cause)))
  | none => if cancelled then thread.goTo (.leaving none) else thread.goTo (.looping job.slice.first)

end Thread

end RespLoad
