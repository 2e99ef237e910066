import RespLoad.Proofs.Driver.Client
import RespLoad.Proofs.Driver.Logging
import RespLoad.Proofs.Driver.Merge

/-!
# Counters that are carried along

The loop over a client's iterations as it keeps its books: it adds a sample to those it has, warns while
a counter still stands at zero, steps the counter and goes on, and an error ends it with the books as they
are. At the end the counters are the counts over the exchanges that `Exchange.tally` takes at once, and the
warnings are those of `Exchange.warnings`. The counters of several clients are added up one client after
the other, up to the first that failed, and come to what `Driver.merge` takes of all exchanges. The times
are not spoken of.
-/
namespace RespLoad

/-- The books of a client: the clock that it reads, the calls that it made, what it logged, its samples and
its counters. -/
structure Books where
  clock : Clock
  events : List Event := []
  log : List LogEntry := []
  samples : List Float := []
  counters : ReplyTally := {}

namespace Books

variable {ε : Type}

/-- Takes the next reading of the clock. -/
def readClock : EStateM ε Books Int :=
  modifyGet fun books => (books.clock.read.1, { books with clock := books.clock.read.2 })

def warn (message : Bytes) : EStateM ε Books Unit :=
  modify fun books => { books with log := books.log ++ [⟨.warn, message⟩] }

def count (step : ReplyTally → ReplyTally) : EStateM ε Books Unit :=
  modify fun books => { books with counters := step books.counters }

/-- Sends a command and reads the reply. -/
def roundTrip (peer : Peer) (command : Command) : EStateM IoError Books (Bytes × Peer) :=
  fun books =>
    let answer := peer.roundTrip command
    let books := { books with events := books.events ++ answer.events }
    match answer.result with
    | .ok reply => .ok (reply, answer.peer) books
    | .error cause => .error cause books

/-- Enters a completed round trip: its sample, and what its reply is. -/
def enter (operation : Operation) (exchange : Exchange) : EStateM ε Books Unit := do
  modify fun books => { books with samples := books.samples ++ [exchange.latency] }
  match exchange.kind with
  | .empty => do
    if (← get).counters.empty = 0 then
      warn (operation.name ++ utf8 ": server closed the connection at iteration " ++
        Decimal.ofNat exchange.index ++ utf8 "; latencies after this point are not round trips")
    count fun counters => { counters with empty := counters.empty + 1 }
  | .error => do
    if (← get).counters.errors = 0 then
      warn (operation.name ++ utf8 ": error reply " ++ (Utf8.decode exchange.reply).take 80)
    count fun counters => { counters with errors := counters.errors + 1 }
  | _ => pure ()
  if Utf8.isLossy exchange.reply then
    count fun counters => { counters with lossy := counters.lossy + 1 }

/-- Runs `iterations` iterations from index `index` on. -/
def iterate (operation : Operation) : Nat → Nat → Peer → EStateM IterationError Books Unit
  | 0, _, _ => pure ()
  | iterations + 1, index, peer => do
    let started ← readClock
    let (reply, peer) ←
      (roundTrip peer (operation.command index)).adaptExcept (⟨operation, index, ·⟩)
    let ended ← readClock
    enter operation ⟨index, started, ended, reply⟩
    iterate operation iterations (index + 1) peer

/-- An entry of the books is one exchange more in the counts and in what is warned of. -/
theorem enter_eq (operation : Operation) (exchange : Exchange) (books : Books) :
    (enter operation exchange : EStateM ε Books Unit) books = .ok ()
      { books with
        log := books.log ++ exchange.firstWarning operation books.counters
        samples := books.samples ++ [exchange.latency]
        counters := books.counters.count exchange } := by
  obtain ⟨clock, events, log, samples, empty, errors, lossy⟩ := books
  -- Where nothing is warned of, the log is what it was.
  have hkept : ∀ (samples : List Float) (counters : ReplyTally),
      (EStateM.Result.ok () ⟨clock, events, log, samples, counters⟩ : EStateM.Result ε Books Unit) =
        .ok () ⟨clock, events, log ++ [], samples, counters⟩ := by
    intro samples counters
    rw [List.append_nil]
  simp only [enter, Exchange.firstWarning, Exchange.warning?, ReplyTally.count]
  cases exchange.kind with
  | empty =>
    cases empty with
    | zero => cases Utf8.isLossy exchange.reply <;> rfl
    | succ _ => cases Utf8.isLossy exchange.reply <;> exact hkept _ _
  | error =>
    cases errors with
    | zero => cases Utf8.isLossy exchange.reply <;> rfl
    | succ _ => cases Utf8.isLossy exchange.reply <;> exact hkept _ _
  | _ => cases Utf8.isLossy exchange.reply <;> exact hkept _ _

/-- The books behind some exchanges, as the lists have them. -/
def behind (operation : Operation) (clock : Clock) (events : List Event) (log : List LogEntry)
    (past : List Exchange) : Books where
  clock := clock
  events := events
  log := log ++ Exchange.warnings operation past
  samples := past.map Exchange.latency
  counters := Exchange.tally past

section Behind

variable (operation : Operation) (clock : Clock) (events : List Event) (log : List LogEntry)
  (past : List Exchange)

theorem readClock_behind :
    (readClock : EStateM ε Books Int) (behind operation clock events log past) =
      .ok clock.read.1 (behind operation clock.read.2 events log past) := rfl

theorem roundTrip_behind (peer : Peer) (command : Command) :
    roundTrip peer command (behind operation clock events log past) =
      let answer := peer.roundTrip command
      let left := behind operation clock (events ++ answer.events) log past
      match answer.result with
      | .ok reply => .ok (reply, answer.peer) left
      | .error cause => .error cause left := rfl

theorem enter_behind (exchange : Exchange) :
    (enter operation exchange : EStateM ε Books Unit) (behind operation clock events log past) =
      .ok () (behind operation clock events log (past ++ [exchange])) := by
  rw [enter_eq, behind, behind, Exchange.warnings_append_singleton, Exchange.tally_append_singleton,
    List.map_append, List.append_assoc]
  rfl

/-- The loop takes the books from some exchanges to those and the ones that it completes. An error ends it
with the books as they are then. -/
theorem iterate_behind (iterations index : Nat) (peer : Peer) :
    iterate operation iterations index peer (behind operation clock events log past) =
      let work := operation.iterate iterations index peer clock
      let left := behind operation work.clock (events ++ work.events) log (past ++ work.exchanges)
      match work.failure with
      | none => .ok () left
      | some error => .error error left := by
  induction iterations generalizing index peer clock events past with
  | zero =>
    simp only [Operation.iterate, List.append_nil]
    rfl
  | succ iterations ih =>
    cases hr : (peer.roundTrip (operation.command index)).result with
    | error cause =>
      simp only [iterate, bind, EStateM.bind, EStateM.adaptExcept, readClock_behind,
        roundTrip_behind, hr, Operation.iterate, List.append_nil]
    | ok reply =>
      simp only [iterate, bind, EStateM.bind, EStateM.adaptExcept, readClock_behind,
        roundTrip_behind, hr, enter_behind, ih, Operation.iterate, Iterations.after,
        List.append_assoc, List.singleton_append]

end Behind

end Books

/-- What a client leaves behind: why it failed, if it did, and its books. -/
structure Worker where
  failure : Option ClientError
  books : Books

/-- Runs a client by its own clock, with books. -/
def Target.work (target : Target) (operation : Operation) (slice : Slice) (script : Script) :
    Worker :=
  let dialled := target.dial script
  let begun : Books := { clock := script.clock, events := dialled.events, log := dialled.log }
  match dialled.result with
  | .error cause => ⟨some (.connection cause), begun⟩
  | .ok peer =>
    let (failure, books) :=
      match Books.iterate operation slice.count slice.first peer begun with
      | .ok () books => (none, books)
      | .error cause books => (some cause, books)
    ⟨failure.map .iteration, { books with events := books.events ++ [.close] }⟩

/-- The books say what the client came to. -/
structure Worker.Keeps (worker : Worker) (client : ClientRun) : Prop where
  failure : worker.failure = client.failure
  events : worker.books.events = client.events
  log : worker.books.log = client.log
  samples : worker.books.samples = client.exchanges.map Exchange.latency
  counters : worker.books.counters = Exchange.tally client.exchanges

theorem Books.behind_nothing (operation : Operation) (clock : Clock) (events : List Event)
    (log : List LogEntry) :
    ({ clock := clock, events := events, log := log } : Books) =
      behind operation clock events log [] := by
  have hlog : log = log ++ Exchange.warnings operation [] := (List.append_nil log).symm
  exact congrArg (fun log => ({ clock := clock, events := events, log := log } : Books)) hlog

theorem keeps_work (target : Target) (operation : Operation) (slice : Slice) (script : Script) :
    (target.work operation slice script).Keeps (target.runClient operation slice script) := by
  cases hd : (target.dial script).result with
  | error cause =>
    rw [runClient_of_error hd]
    simp only [Target.work, hd, Dialled.leave]
    exact ⟨rfl, rfl, rfl, rfl, rfl⟩
  | ok peer =>
    rw [runClient_of_ok hd]
    simp only [Target.work, hd, Books.behind_nothing operation, Books.iterate_behind]
    generalize operation.iterate slice.count slice.first peer script.clock = work
    obtain ⟨exchanges, failure, events, clock⟩ := work
    cases failure <;> exact ⟨rfl, rfl, rfl, rfl, rfl⟩

namespace ReplyTally

/-- Adds to each counter. -/
def add (a b : ReplyTally) : ReplyTally where
  empty := a.empty + b.empty
  errors := a.errors + b.errors
  lossy := a.lossy + b.lossy

end ReplyTally

theorem Exchange.tally_append (past more : List Exchange) :
    tally (past ++ more) = (tally past).add (tally more) := by
  simp only [tally, ReplyTally.add, List.countP_append]

namespace Driver

/-- Goes through the clients from a number on, adding the samples and the counters of each to those before,
up to the first that failed. -/
def gather : Nat → List Worker → List Float → ReplyTally → Except RunError (List Float × ReplyTally)
  | _, [], samples, counters => .ok (samples, counters)
  | index, worker :: more, samples, counters =>
    match worker.failure with
    | some cause => .error (.numbered index cause)
    | none => gather (index + 1) more (samples ++ worker.books.samples)
        (counters.add worker.books.counters)

/-- Behind some exchanges the sums are those of these and of the clients' exchanges. -/
theorem gather_eq {workers : List Worker} {clients : List ClientRun}
    (h : List.Forall₂ Worker.Keeps workers clients) (index : Nat) (past : List Exchange) :
    gather index workers (past.map Exchange.latency) (Exchange.tally past) =
      match (clients.zipIdx index).findSome? fun (client, index) =>
        client.failure.map (RunError.numbered index) with
      | some error => .error error
      | none =>
        let exchanges := past ++ clients.flatMap ClientRun.exchanges
        .ok (exchanges.map Exchange.latency, Exchange.tally exchanges) := by
  induction h generalizing index past with
  | nil =>
    simp only [List.zipIdx_nil, List.findSome?_nil, List.flatMap_nil, List.append_nil]
    rfl
  | @cons worker client workers clients hkeeps hmore ih =>
    rw [gather, hkeeps.failure, List.zipIdx_cons, List.findSome?_cons]
    cases hf : client.failure with
    | some cause => simp only [hf, Option.map_some]
    | none =>
      simp only [hf, Option.map_none, hkeeps.samples, hkeeps.counters, ← List.map_append,
        ← Exchange.tally_append, ih, List.flatMap_cons, List.append_assoc]

end Driver

end RespLoad
