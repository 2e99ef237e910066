import RespLoad.Driver.Run
import RespLoad.Report

/-!
# A benchmark

A benchmark runs the configured operations in order and stops at the first failure if the policy says
so. What each operation came to is kept in a list, and the summary, the report, the log and the exit
code are functions of that list.
-/
namespace RespLoad

/-- What a driver answers to a call: its run of the operation or the text of an error, and the log that
it wrote. -/
structure Answer where
  result : Except Bytes OperationRun
  log : List LogEntry

/-- What one operation of a benchmark came to. -/
structure Outcome extends Answer where
  operation : Operation

namespace Outcome

def isFailure (outcome : Outcome) : Bool := !outcome.result.toBool

/-- The measurement of an operation that completed. -/
def measurement? (outcome : Outcome) : Option Measurement :=
  outcome.result.toOption.map OperationRun.measurement

/-- The name of an operation that failed. -/
def failed? (outcome : Outcome) : Option Bytes :=
  if outcome.isFailure then some outcome.operation.name else none

/-- The progress entry of an operation. -/
def progress (outcome : Outcome) : Bytes :=
  Report.started outcome.operation.name ++
    match outcome.result with
    | .error _ => Report.failed
    | .ok run => Report.completed run.measurement

/-- What is logged when an operation has been run. -/
def closingLog (policy : FailurePolicy) (outcome : Outcome) : List LogEntry :=
  let name := outcome.operation.name
  match outcome.result with
  | .error cause =>
    let failure := ⟨.error, name ++ utf8 " benchmark failed: " ++ cause⟩
    match policy with
    | .abort => [failure, ⟨.error, utf8 "aborting run (on-error abort)"⟩]
    | .proceed => [failure]
  | .ok run =>
    [⟨.debug, name ++ utf8 ": " ++ Decimal.ofNat run.samples.length ++ utf8 " samples in " ++
      Number.fixed 6 run.measurement.totalSeconds ++ utf8 " s"⟩]

end Outcome

/-- A way to run an operation for a number of iterations, from a state to the next. -/
abbrev Runner (σ : Type) := Operation → Nat → σ → Answer × σ

/-- Runs operations in order, handing the state from one to the next, up to the first failure under
the policy to abort. -/
def Runner.runEach {σ : Type} (run : Runner σ) (policy : FailurePolicy) (iterations : Nat) :
    List Operation → σ → List Outcome × σ
  | [], state => ([], state)
  | operation :: more, state =>
    let (answer, state) := run operation iterations state
    let outcome : Outcome := { answer with operation := operation }
    if outcome.isFailure && policy == .abort then ([outcome], state)
    else
      let (outcomes, state) := run.runEach policy iterations more state
      (outcome :: outcomes, state)

/-- The exit codes of the program. -/
inductive ExitCode where
  | success
  | failure
  | belowKillSwitch
  deriving Repr, DecidableEq

def ExitCode.toNat : ExitCode → Nat
  | .success => 0
  | .failure => 1
  | .belowKillSwitch => 2

/-- A benchmark that has been run: its settings and what the operations came to. -/
structure Benchmark where
  settings : Settings
  outcomes : List Outcome

namespace Benchmark

/-- Whether a failure ended the benchmark. -/
def aborted (benchmark : Benchmark) : Bool :=
  benchmark.settings.onFailure == .abort && benchmark.outcomes.any Outcome.isFailure

def summary (benchmark : Benchmark) : Summary where
  completed := benchmark.outcomes.filterMap Outcome.measurement?
  failed := benchmark.outcomes.filterMap Outcome.failed?

/-- The report. A benchmark that was aborted has no section of results. -/
def report (benchmark : Benchmark) : Bytes :=
  Report.banner benchmark.settings ++ benchmark.outcomes.flatMap Outcome.progress ++
    if benchmark.aborted then [] else Report.results benchmark.summary

/-- The log, whatever the threshold. -/
def log (benchmark : Benchmark) : List LogEntry :=
  let settings := benchmark.settings
  let endpoint : Endpoint := ⟨settings.host, settings.port⟩
  ⟨.info, utf8 "benchmarking " ++ endpoint.text ++ utf8 " with " ++
      Decimal.ofNat settings.iterations ++ utf8 " iterations per operation"⟩ ::
    benchmark.outcomes.flatMap fun outcome => outcome.log ++ outcome.closingLog settings.onFailure

/-- The exit code: failure when the benchmark was aborted or nothing completed, and otherwise a
strict benchmark must not stay below the kill switch. -/
def exitCode (benchmark : Benchmark) : ExitCode :=
  let summary := benchmark.summary
  if benchmark.aborted || summary.completed.isEmpty then .failure
  else if benchmark.settings.strict &&
      Verdict.ofAverage summary.average == .belowKillSwitch then .belowKillSwitch
  else .success

end Benchmark

namespace Settings

/-- Runs a benchmark with any way to run an operation. -/
def benchmark {σ : Type} (settings : Settings) (run : Runner σ) (state : σ) : Benchmark × σ :=
  let (outcomes, state) :=
    run.runEach settings.onFailure settings.iterations settings.operations state
  (⟨settings, outcomes⟩, state)

/-- Where and how the clients of a benchmark connect. -/
def target (settings : Settings) : Target where
  endpoint := ⟨settings.host, settings.port⟩
  timeoutMs := settings.timeoutMs
  user := settings.user
  password := settings.password

end Settings

/-- The state of a benchmark that runs on a network: what lies ahead, and the connections behind. -/
structure Progress where
  network : Network
  connections : List (List Event) := []

/-- Runs an operation with a driver. -/
def Driver.runner (driver : Driver) (target : Target) : Runner Progress :=
  fun operation iterations progress =>
    let (attempt, network) := driver.run target operation iterations progress.network
    (⟨attempt.result.mapError RunError.message, attempt.log⟩,
      { network := network, connections := progress.connections ++ attempt.connections })

/-- Runs a benchmark on a network, with the driver for the number of clients. -/
def Settings.benchmarkOn (settings : Settings) (network : Network) : Benchmark × Progress :=
  settings.benchmark ((Driver.choose settings.clients).runner settings.target)
    { network := network }

/-- Answers that are laid out in advance, and the calls that were made for them. -/
structure Replay where
  answers : List (Except Bytes OperationRun)
  calls : List (Operation × Nat) := []

/-- Takes the next answer and notes the call. When there is none left, the operation fails. -/
def Replay.runner : Runner Replay := fun operation iterations replay =>
  (⟨replay.answers.headD (.error (utf8 "script exhausted")), []⟩,
    { answers := replay.answers.tail, calls := replay.calls ++ [(operation, iterations)] })

end RespLoad
