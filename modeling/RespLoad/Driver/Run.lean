import RespLoad.Driver.Client
import RespLoad.Driver.Network

/-!
# Drivers

A driver runs one operation for a number of iterations and measures it. The sequential driver has one
connection. The concurrent driver splits the iterations evenly among clients, each with a connection
and a clock of its own; its clock starts when every client has tried to connect and stops when every
client is done, and what the clients report is put together in the order of the clients. Here the
clients run one after the other.
-/
namespace RespLoad

/-- Why a driver's run failed. -/
inductive RunError where
  | tooManyIterations (iterations : Nat)
  | client (cause : ClientError)
  | numbered (index : Nat) (cause : ClientError)
  | threadStart (index : Nat)
  deriving Repr, DecidableEq

def RunError.message : RunError → Bytes
  | .tooManyIterations iterations =>
    utf8 "iteration count " ++ Decimal.ofNat iterations ++ utf8 " exceeds the limit of " ++
      Decimal.ofNat Operation.maxIterations
  | .client cause => cause.message
  | .numbered index cause => utf8 "client " ++ Decimal.ofNat index ++ utf8 ": " ++ cause.message
  | .threadStart index =>
    utf8 "cannot start client thread " ++ Decimal.ofNat index ++ utf8 ": " ++ Errno.wouldBlock.text

/-- The samples of a run, in microseconds, and the measurement made of them. -/
structure OperationRun where
  samples : List Float
  measurement : Measurement

/-- The run of an operation from the exchanges that it completed. -/
def OperationRun.ofExchanges (operation : Operation) (iterations : Nat) (elapsed : Int)
    (exchanges : List Exchange) : OperationRun :=
  let samples := exchanges.map Exchange.latency
  { samples := samples
    measurement :=
      { operation := operation.name
        iterations := iterations
        totalSeconds := Binary64.ofFloat (seconds elapsed)
        opsPerSecond := throughput iterations (seconds elapsed)
        latency := (Latency.stats PercentileRanks.binary64 samples).map Binary64.ofFloat
        replies := Exchange.tally exchanges } }

/-- What a run came to: its result, the calls on each connection in the order of their scripts, and
the log. -/
structure Attempt where
  result : Except RunError OperationRun
  connections : List (List Event)
  log : List LogEntry

/-- The two ways to run an operation. The number of clients is one more than `others`. -/
inductive Driver where
  | sequential
  | concurrent (others : Nat)
  deriving Repr, DecidableEq

namespace Driver

/-- A driver with at least one client, each on a thread of its own. -/
def withClients (clients : Int) : Driver := .concurrent (clients - 1).toNat

/-- The driver for a number of clients: threads are only for more than one. -/
def choose (clients : Int) : Driver :=
  if clients ≤ 1 then .sequential else withClients clients

/-- The share of one client: an even part, and one of the remaining iterations for each of the first
clients. -/
def share (iterations clients client : Nat) : Nat :=
  iterations / clients + (if client < iterations % clients then 1 else 0)

/-- Ranges of the given lengths, one behind the other. -/
def consecutive (first : Nat) : List Nat → List Slice
  | [] => []
  | count :: more => ⟨first, count⟩ :: consecutive (first + count) more

/-- The ranges of the clients. -/
def slices (iterations clients : Nat) : List Slice :=
  consecutive 0 ((List.range clients).map (share iterations clients))

/-- Runs an operation on one connection. The clock is the program's own. -/
def runSequential (target : Target) (operation : Operation) (iterations : Nat) (network : Network) :
    Attempt × Network :=
  let dialled := target.dial network.nextScript
  let network := network.dropScripts 1
  match dialled.result with
  | .error cause =>
    let client := dialled.leave
    (⟨.error (.client (.connection cause)), [client.events], client.log⟩, network)
  | .ok peer =>
    let (start, network) := network.readClock
    let work := operation.iterate iterations 0 peer network.clock
    let client := dialled.continueWith operation work
    let network := { network with clock := work.clock }
    match client.failure with
    | some cause => (⟨.error (.client cause), [client.events], client.log⟩, network)
    | none =>
      let (stop, network) := network.readClock
      let run := OperationRun.ofExchanges operation iterations (stop - start) client.exchanges
      (⟨.ok run, [client.events], client.log⟩, network)

/-- The failure of the first client that failed, with its number. -/
def firstFailure (clients : List ClientRun) : Option RunError :=
  clients.zipIdx.findSome? fun (client, index) => client.failure.map (.numbered index)

/-- What is logged when the results of all clients have been put together. -/
def mergedLog (operation : Operation) (samples clients : Nat) : LogEntry :=
  ⟨.debug, operation.name ++ utf8 ": merged " ++ Decimal.ofNat samples ++ utf8 " samples from " ++
    Decimal.ofNat clients ++ utf8 " clients"⟩

/-- Puts together what the clients came to. -/
def merge (operation : Operation) (iterations : Nat) (elapsed : Int) (clients : List ClientRun) :
    Attempt :=
  let exchanges := clients.flatMap ClientRun.exchanges
  let connections := clients.map ClientRun.events
  let log := clients.flatMap ClientRun.log
  match firstFailure clients with
  | some error => ⟨.error error, connections, log⟩
  | none =>
    { result := .ok (OperationRun.ofExchanges operation iterations elapsed exchanges)
      connections := connections
      log := log ++ [mergedLog operation exchanges.length clients.length] }

/-- Runs an operation on several connections. When a thread cannot be started, the clients started
before it leave after dialling. -/
def runConcurrent (target : Target) (clients : Nat) (operation : Operation) (iterations : Nat)
    (network : Network) : Attempt × Network :=
  match network.failingAmong clients with
  | some index =>
    let started := (network.nextScripts index).map fun script => (target.dial script).leave
    (⟨.error (.threadStart index), started.map ClientRun.events, started.flatMap ClientRun.log⟩,
      (network.dropScripts index).countStarts (index + 1))
  | none =>
    let runs := List.zipWith (target.runClient operation) (slices iterations clients)
      (network.nextScripts clients)
    let network := (network.dropScripts clients).countStarts clients
    let (start, network) := network.readClock
    let (stop, network) := network.readClock
    (merge operation iterations (stop - start) runs, network)

/-- Runs an operation, unless it has too many iterations. -/
def run (driver : Driver) (target : Target) (operation : Operation) (iterations : Nat)
    (network : Network) : Attempt × Network :=
  if Operation.maxIterations < iterations then
    (⟨.error (.tooManyIterations iterations), [], []⟩, network)
  else match driver with
    | .sequential => runSequential target operation iterations network
    | .concurrent others => runConcurrent target (others + 1) operation iterations network

/-- Runs several operations one after the other; a failed one does not stop the rest. -/
def runEach (driver : Driver) (target : Target) :
    List (Operation × Nat) → Network → List Attempt × Network
  | [], network => ([], network)
  | (operation, iterations) :: more, network =>
    let (attempt, network) := driver.run target operation iterations network
    let (attempts, network) := driver.runEach target more network
    (attempt :: attempts, network)

end Driver

end RespLoad
