import RespLoad.Proofs.Driver.Counters

/-!
# Runs in the caller's variable

A driver is handed the variable that the caller keeps the run in. Here it works on that variable, and on
the network, the connections and the log beside it, and whatever has been written stays written when the
run fails later on. The measurement is written behind all that can fail, and the samples last, so a run
that fails leaves the variable as it was, and one that succeeds leaves there what `Driver.run` answers.
-/
namespace RespLoad

/-- What a call of a driver works on: the caller's variable, what lies ahead, and the connections and the log
that lie behind. -/
structure CallSite where
  out : OperationRun
  network : Network
  connections : List (List Event) := []
  log : List LogEntry := []

namespace CallSite

variable {ε : Type}

def takeScript : EStateM ε CallSite Script :=
  modifyGet fun site => (site.network.nextScript, { site with network := site.network.dropScripts 1 })

def readClock : EStateM ε CallSite Int :=
  modifyGet fun site => (site.network.readClock.1, { site with network := site.network.readClock.2 })

def goTo (network : Network) : EStateM ε CallSite Unit :=
  modify fun site => { site with network := network }

/-- Adds connections that are closed, and what was logged meanwhile. -/
def leave (connections : List (List Event)) (log : List LogEntry) : EStateM ε CallSite Unit :=
  modify fun site =>
    { site with connections := site.connections ++ connections, log := site.log ++ log }

/-- Hands the result to the caller: first the measurement, and then the samples. -/
def conclude (operation : Operation) (iterations : Nat) (elapsed : Int) (samples : List Float)
    (counters : ReplyTally) : EStateM ε CallSite Unit := do
  let measurement : Measurement :=
    { operation := operation.name
      iterations := iterations
      totalSeconds := Binary64.ofFloat (seconds elapsed)
      opsPerSecond := throughput iterations (seconds elapsed)
      latency := (Latency.stats PercentileRanks.binary64 samples).map Binary64.ofFloat
      replies := counters }
  modify fun site => { site with out := { site.out with measurement := measurement } }
  modify fun site => { site with out := { site.out with samples := samples } }

/-- The site behind a call, with what is in the caller's variable then. -/
def after (site : CallSite) (call : Attempt × Network) (out : OperationRun) : CallSite where
  out := out
  network := call.2
  connections := site.connections ++ call.1.connections
  log := site.log ++ call.1.log

/-- Puts all that a call came to in its place at once: the run, if there is one, in the variable. -/
def settle (site : CallSite) (call : Attempt × Network) : EStateM.Result RunError CallSite Unit :=
  match call.1.result with
  | .ok run => .ok () (site.after call run)
  | .error cause => .error cause (site.after call site.out)

theorem settle_eq_error_iff {site left : CallSite} {call : Attempt × Network} {cause : RunError} :
    site.settle call = .error cause left ↔
      call.1.result = .error cause ∧ left = site.after call site.out := by
  rw [settle]
  cases call.1.result with
  | ok run => exact ⟨nofun, nofun⟩
  | error own =>
    constructor
    · intro h
      cases h
      exact ⟨rfl, rfl⟩
    · intro h
      obtain ⟨hcause, rfl⟩ := h
      cases hcause
      rfl

theorem settle_eq_ok_iff {site left : CallSite} {call : Attempt × Network} :
    site.settle call = .ok () left ↔
      ∃ run, call.1.result = .ok run ∧ left = site.after call run := by
  rw [settle]
  cases call.1.result with
  | ok own =>
    constructor
    · intro h
      cases h
      exact ⟨own, rfl, rfl⟩
    · intro h
      obtain ⟨run, hrun, rfl⟩ := h
      cases hrun
      rfl
  | error cause =>
    constructor
    · intro h
      cases h
    · intro h
      obtain ⟨run, hrun, -⟩ := h
      cases hrun

section Run

variable (site : CallSite)

theorem get_eq : (get : EStateM ε CallSite CallSite) site = .ok site site := rfl

theorem takeScript_eq : (takeScript : EStateM ε CallSite Script) site =
    .ok site.network.nextScript { site with network := site.network.dropScripts 1 } := rfl

theorem readClock_eq : (readClock : EStateM ε CallSite Int) site =
    .ok site.network.readClock.1 { site with network := site.network.readClock.2 } := rfl

theorem goTo_eq (network : Network) :
    (goTo network : EStateM ε CallSite Unit) site = .ok () { site with network := network } := rfl

theorem leave_eq (connections : List (List Event)) (log : List LogEntry) :
    (leave connections log : EStateM ε CallSite Unit) site = .ok ()
      { site with connections := site.connections ++ connections, log := site.log ++ log } := rfl

theorem conclude_eq (operation : Operation) (iterations : Nat) (elapsed : Int)
    (exchanges : List Exchange) :
    (conclude operation iterations elapsed (exchanges.map Exchange.latency)
        (Exchange.tally exchanges) : EStateM ε CallSite Unit) site =
      .ok () { site with out := .ofExchanges operation iterations elapsed exchanges } := rfl

end Run

end CallSite

namespace Driver

open CallSite (takeScript readClock goTo leave conclude)

/-- Runs an operation on one connection, in place. A connection is closed also when the run fails. -/
def runSequentialInPlace (target : Target) (operation : Operation) (iterations : Nat) :
    EStateM RunError CallSite Unit := do
  let dialled := target.dial (← takeScript)
  match dialled.result with
  | .error cause => do
    leave [dialled.events] dialled.log
    throw (.client (.connection cause))
  | .ok peer => do
    let start ← readClock
    let network := (← get).network
    let begun : Books :=
      { clock := network.clock, events := dialled.events, log := dialled.log }
    let (failure, books) :=
      match Books.iterate operation iterations 0 peer begun with
      | .ok () books => (none, books)
      | .error cause books => (some cause, books)
    goTo { network with clock := books.clock }
    match failure with
    | some cause => do
      leave [books.events ++ [.close]] books.log
      throw (.client (.iteration cause))
    | none => do
      let stop ← readClock
      leave [books.events ++ [.close]] books.log
      conclude operation iterations (stop - start) books.samples books.counters

/-- Runs an operation on several connections, in place, one client after the other. -/
def runConcurrentInPlace (target : Target) (clients : Nat) (operation : Operation)
    (iterations : Nat) : EStateM RunError CallSite Unit := do
  let network := (← get).network
  match network.failingAmong clients with
  | some index => do
    let started := (network.nextScripts index).map fun script => (target.dial script).leave
    goTo ((network.dropScripts index).countStarts (index + 1))
    leave (started.map ClientRun.events) (started.flatMap ClientRun.log)
    throw (.threadStart index)
  | none => do
    let workers := List.zipWith (target.work operation) (slices iterations clients)
      (network.nextScripts clients)
    goTo ((network.dropScripts clients).countStarts clients)
    let start ← readClock
    let stop ← readClock
    leave (workers.map (·.books.events)) (workers.flatMap (·.books.log))
    match gather 0 workers [] {} with
    | .error cause => throw cause
    | .ok (samples, counters) => do
      leave [] [mergedLog operation samples.length workers.length]
      conclude operation iterations (stop - start) samples counters

/-- Runs an operation in place, unless it has too many iterations. -/
def runInPlace (driver : Driver) (target : Target) (operation : Operation) (iterations : Nat) :
    EStateM RunError CallSite Unit := do
  if Operation.maxIterations < iterations then throw (.tooManyIterations iterations)
  match driver with
  | .sequential => runSequentialInPlace target operation iterations
  | .concurrent others => runConcurrentInPlace target (others + 1) operation iterations

theorem runSequentialInPlace_eq (target : Target) (operation : Operation) (iterations : Nat)
    (site : CallSite) :
    runSequentialInPlace target operation iterations site =
      site.settle (runSequential target operation iterations site.network) := by
  cases hd : (target.dial site.network.nextScript).result with
  | error cause =>
    simp only [runSequentialInPlace, runSequential, bind, EStateM.bind, CallSite.takeScript_eq, hd,
      Dialled.leave]
    rfl
  | ok peer =>
    simp only [runSequentialInPlace, runSequential, bind, EStateM.bind, CallSite.takeScript_eq, hd,
      CallSite.readClock_eq, CallSite.get_eq, Books.behind_nothing operation, Books.iterate_behind,
      Dialled.continueWith]
    generalize operation.iterate iterations 0 peer _ = work
    obtain ⟨exchanges, failure, events, clock⟩ := work
    cases failure with
    | none => rfl
    | some cause => rfl

/-- The clients with books and those with lists come to the same. -/
theorem forall₂_keeps (target : Target) (operation : Operation) (slices : List Slice)
    (scripts : List Script) :
    List.Forall₂ Worker.Keeps (List.zipWith (target.work operation) slices scripts)
      (List.zipWith (target.runClient operation) slices scripts) := by
  refine forall₂_zipWith (r := Eq) ?_ slices (List.forall₂_refl scripts)
  rintro slice script _ rfl
  exact keeps_work target operation slice script

theorem runConcurrentInPlace_eq (target : Target) (clients : Nat) (operation : Operation)
    (iterations : Nat) (site : CallSite) :
    runConcurrentInPlace target clients operation iterations site =
      site.settle (runConcurrent target clients operation iterations site.network) := by
  cases hf : site.network.failingAmong clients with
  | some index =>
    simp only [runConcurrentInPlace, runConcurrent, bind, EStateM.bind, CallSite.get_eq, hf]
    rfl
  | none =>
    have hkeeps := forall₂_keeps target operation (slices iterations clients)
      (site.network.nextScripts clients)
    simp only [runConcurrentInPlace, runConcurrent, bind, EStateM.bind, CallSite.get_eq, hf,
      CallSite.goTo_eq, CallSite.readClock_eq, CallSite.leave_eq]
    generalize List.zipWith (target.work operation) (slices iterations clients) _ = workers at *
    generalize List.zipWith (target.runClient operation) (slices iterations clients) _ = runs at *
    have hevents : workers.map (·.books.events) = runs.map ClientRun.events :=
      map_eq_of_forall₂ (fun _ _ h => h.events) hkeeps
    have hlog : workers.flatMap (·.books.log) = runs.flatMap ClientRun.log :=
      flatMap_eq_of_forall₂ (fun _ _ h => h.log) hkeeps
    have hgather : gather 0 workers [] {} = _ := gather_eq hkeeps 0 []
    simp only [hgather, hevents, hlog, hkeeps.length_eq, merge, firstFailure, List.nil_append]
    cases runs.zipIdx.findSome? _ with
    | some error => rfl
    | none =>
      simp only [EStateM.bind, CallSite.leave_eq, CallSite.conclude_eq, CallSite.settle,
        CallSite.after, List.length_map, List.append_nil, List.append_assoc]

/-- A run in place comes to what the run answers, and puts it in the caller's variable only when it
succeeds. -/
theorem runInPlace_eq (driver : Driver) (target : Target) (operation : Operation) (iterations : Nat)
    (site : CallSite) :
    driver.runInPlace target operation iterations site =
      site.settle (driver.run target operation iterations site.network) := by
  by_cases hlimit : Operation.maxIterations < iterations
  · simp only [runInPlace, run, if_pos hlimit, CallSite.settle, CallSite.after,
      List.append_nil]
    rfl
  · simp only [runInPlace, run, if_neg hlimit]
    cases driver with
    | sequential => exact runSequentialInPlace_eq target operation iterations site
    | concurrent others => exact runConcurrentInPlace_eq target (others + 1) operation iterations site

end Driver

end RespLoad
