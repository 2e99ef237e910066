import RespLoad.Driver.Iterations

/-!
# One client

A client dials, runs its iterations on the connection it got, and closes it, whether the iterations
succeeded or not. A client that was not connected has nothing to close.
-/
namespace RespLoad

/-- Why a client failed. -/
inductive ClientError where
  | connection (cause : OpenError)
  | iteration (cause : IterationError)
  deriving Repr, DecidableEq

def ClientError.message : ClientError → Bytes
  | .connection cause => cause.message
  | .iteration cause => cause.message

/-- A range of iteration indices. -/
structure Slice where
  first : Nat
  count : Nat
  deriving Repr, DecidableEq

/-- What a client came to. -/
structure ClientRun where
  failure : Option ClientError
  exchanges : List Exchange
  events : List Event
  log : List LogEntry

namespace Dialled

/-- A client that goes no further than dialling. -/
def leave (dialled : Dialled) : ClientRun :=
  match dialled.result with
  | .error cause => ⟨some (.connection cause), [], dialled.events, dialled.log⟩
  | .ok _ => ⟨none, [], dialled.events ++ [.close], dialled.log⟩

/-- A client that goes on with what it did on its connection. -/
def continueWith (dialled : Dialled) (operation : Operation) (work : Iterations) : ClientRun where
  failure := work.failure.map .iteration
  exchanges := work.exchanges
  events := dialled.events ++ work.events ++ [.close]
  log := dialled.log ++ Exchange.warnings operation work.exchanges

end Dialled

/-- Runs a client by its own clock. -/
def Target.runClient (target : Target) (operation : Operation) (slice : Slice) (script : Script) :
    ClientRun :=
  let dialled := target.dial script
  match dialled.result with
  | .error _ => dialled.leave
  | .ok peer =>
    dialled.continueWith operation (operation.iterate slice.count slice.first peer script.clock)

end RespLoad
