import RespLoad.Connection.Dial
import RespLoad.Measurement
import RespLoad.Operation

/-!
# Iterations

A client sends the commands of a range of iterations one at a time, each after the reply to the one
before, and takes the clock before and after every round trip. What it reports, the samples, the
tallies and the warnings, is computed from the exchanges it completed.
-/
namespace RespLoad

/-- A completed round trip: when it started and ended, and the bytes of the one read. -/
structure Exchange where
  index : Nat
  started : Int
  ended : Int
  reply : Bytes
  deriving Repr, DecidableEq

/-- The iteration that could not be completed. -/
structure IterationError where
  operation : Operation
  index : Nat
  cause : IoError
  deriving Repr, DecidableEq

def IterationError.message (error : IterationError) : Bytes :=
  error.operation.name ++ utf8 " iteration " ++ Decimal.ofNat error.index ++ utf8 ": " ++
    error.cause.message

/-- What a range of iterations came to. The exchanges are those before the failure, if there is
one. -/
structure Iterations where
  exchanges : List Exchange
  failure : Option IterationError
  events : List Event
  clock : Clock

/-- The same after one exchange more at the front. -/
def Iterations.after (exchange : Exchange) (events : List Event) (later : Iterations) : Iterations :=
  { later with
    exchanges := exchange :: later.exchanges
    events := events ++ later.events }

namespace Operation

/-- Runs `count` iterations from index `index` on. -/
def iterate (operation : Operation) : Nat → Nat → Peer → Clock → Iterations
  | 0, _, _, clock => ⟨[], none, [], clock⟩
  | count + 1, index, peer, clock =>
    let (started, clock) := clock.read
    let answer := peer.roundTrip (operation.command index)
    match answer.result with
    | .error cause => ⟨[], some ⟨operation, index, cause⟩, answer.events, clock⟩
    | .ok reply =>
      let (ended, clock) := clock.read
      (operation.iterate count (index + 1) answer.peer clock).after
        ⟨index, started, ended, reply⟩ answer.events

end Operation

namespace Exchange

/-- The time of the round trip. -/
def latency (exchange : Exchange) : Float := micros (exchange.ended - exchange.started)

def kind (exchange : Exchange) : ReplyKind := ReplyKind.ofBytes exchange.reply

/-- How many replies were empty, were errors, and held bytes that are no UTF-8. -/
def tally (exchanges : List Exchange) : ReplyTally where
  empty := exchanges.countP (·.kind = .empty)
  errors := exchanges.countP (·.kind = .error)
  lossy := exchanges.countP (Utf8.isLossy ·.reply)

/-- The longest piece of an error reply that is quoted, in bytes. -/
def quoteLimit : Nat := 80

/-- The warning about an exchange whose reply is the first of its kind. -/
def warning? (operation : Operation) (exchange : Exchange) : Option LogEntry :=
  match exchange.kind with
  | .empty => some ⟨.warn, operation.name ++ utf8 ": server closed the connection at iteration " ++
      Decimal.ofNat exchange.index ++ utf8 "; latencies after this point are not round trips"⟩
  | .error => some ⟨.warn, operation.name ++ utf8 ": error reply " ++
      (Utf8.decode exchange.reply).take quoteLimit⟩
  | _ => none

/-- The warnings about a client's replies: one for the first empty reply and one for the first error,
in the order in which they come. -/
def warnings (operation : Operation) (exchanges : List Exchange) : List LogEntry :=
  go [] exchanges
where
  go (seen : List ReplyKind) : List Exchange → List LogEntry
    | [] => []
    | exchange :: later =>
      if seen.contains exchange.kind then go seen later
      else (exchange.warning? operation).toList ++ go (exchange.kind :: seen) later

end Exchange

end RespLoad
