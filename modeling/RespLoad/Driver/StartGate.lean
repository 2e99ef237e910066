import RespLoad.Driver.Run
import RespLoad.Driver.Thread

/-!
# The start gate

The concurrent driver with its threads interleaved. The main thread starts the clients one by one and
waits at the gate until each has counted itself; then it takes the time and opens the gate. When a
thread cannot be started, it opens the gate with a note that all is cancelled. Either way it waits for
every client it started to end. A step is one critical section, one start or one call, of the main
thread or of one client, and any thread that can step may be the next one to do so.
-/
namespace RespLoad.StartGate

/-- What a run of the concurrent driver is given: a job for each client, and which start of a thread
fails, if any. -/
structure Setup where
  operation : Operation
  iterations : Nat
  jobs : List Job
  failing : Option Nat

/-- Where the main thread stands. -/
inductive MainStage where
  /-- Starts the next thread, or goes on when all are started. -/
  | starting
  /-- Waits until all clients have counted themselves. -/
  | gathering
  /-- Opens the gate after a start that failed. -/
  | cancelling
  /-- Waits for the clients to end, the time at the start known. -/
  | joining (start : Int)
  /-- Waits for the clients to end, after a start that failed. -/
  | abandoning
  | returned (attempt : Attempt)

/-- All threads together. The clients are those started so far, in order. -/
structure State where
  main : MainStage := .starting
  clock : Clock
  clients : List Thread := []
  /-- How many clients have counted themselves. -/
  ready : Nat := 0
  isOpen : Bool := false
  cancelled : Bool := false

/-- Who makes the next step. -/
inductive Actor where
  | main
  | client (index : Nat)
  deriving Repr, DecidableEq

/-- What the clients came to. -/
def State.runs (setup : Setup) (state : State) : List ClientRun :=
  state.clients.map fun thread => thread.result setup.operation

/-- The attempt after a start that failed. -/
def abandoned (setup : Setup) (state : State) : Attempt :=
  let runs := state.runs setup
  ⟨.error (.threadStart runs.length), runs.map ClientRun.events, runs.flatMap ClientRun.log⟩

/-- The next step of the main thread, if it can make one. -/
def stepMain? (setup : Setup) (state : State) : Option State :=
  match state.main with
  | .starting =>
    match setup.jobs[state.clients.length]? with
    | none => some { state with main := .gathering }
    | some job =>
      if setup.failing = some state.clients.length then some { state with main := .cancelling }
      else some { state with clients := state.clients ++ [Thread.start job] }
  | .gathering =>
    if state.ready = setup.jobs.length then
      let (start, clock) := state.clock.read
      some { state with main := .joining start, clock := clock, isOpen := true }
    else none
  | .cancelling => some { state with main := .abandoning, isOpen := true, cancelled := true }
  | .joining start =>
    if state.clients.all Thread.isEnded then
      let (stop, clock) := state.clock.read
      let attempt :=
        Driver.merge setup.operation setup.iterations (stop - start) (state.runs setup)
      some { state with main := .returned attempt, clock := clock }
    else none
  | .abandoning =>
    if state.clients.all Thread.isEnded then
      some { state with main := .returned (abandoned setup state) }
    else none
  | .returned _ => none

/-- The next step of a client, if it has been started and can make one. -/
def stepClient? (setup : Setup) (index : Nat) (state : State) : Option State :=
  match state.clients[index]?, setup.jobs[index]? with
  | some thread, some job =>
    let put := fun after => { state with clients := state.clients.set index after }
    match thread.stage with
    | .arriving failure => some { put (thread.goTo (.waiting failure)) with ready := state.ready + 1 }
    | .waiting failure =>
      if state.isOpen then some (put (thread.released job failure state.cancelled)) else none
    | .ended _ => none
    | _ => some (put (thread.step job))
  | _, _ => none

/-- The state after a step of a thread, if that thread can make one. -/
def next? (setup : Setup) (actor : Actor) (state : State) : Option State :=
  match actor with
  | .main => stepMain? setup state
  | .client index => stepClient? setup index state

/-- The states that some interleaving reaches from a clock and no threads. -/
inductive Reachable (setup : Setup) (clock : Clock) : State → Prop where
  | start : Reachable setup clock { clock := clock }
  | step {state after : State} (actor : Actor) (reached : Reachable setup clock state)
      (stepped : next? setup actor state = some after) : Reachable setup clock after

/-- The state after the steps of a schedule, leaving out steps that cannot be made. -/
def follow (setup : Setup) (state : State) (schedule : List Actor) : State :=
  schedule.foldl (fun state actor => (next? setup actor state).getD state) state

/-- The setup of the concurrent driver on a network. -/
def Setup.ofNetwork (target : Target) (clients : Nat) (operation : Operation) (iterations : Nat)
    (network : Network) : Setup where
  operation := operation
  iterations := iterations
  jobs := List.zipWith (fun slice script => ⟨target, operation, slice, script⟩)
    (Driver.slices iterations clients) (network.nextScripts clients)
  failing := network.failingAmong clients

end RespLoad.StartGate
