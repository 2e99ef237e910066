import Mathlib.Logic.Basic
import Mathlib.Tactic.SplitIfs
import RespLoad.Proofs.Benchmark.Loop
import RespLoad.Proofs.Benchmark.Texts

/-!
# Run control

Which calls the loop of a benchmark makes of its driver, and that its summary, its output and its exit code
are those of these calls, the average as a sum over a count and the texts line by line. The driver is any
function of its own state. So that its calls can be seen, it is watched (`Runner.watched`), which changes
nothing of what it does. The texts of errors and the log are not spoken of.
-/
namespace RespLoad

/-- A call of a driver: what it was asked for and what it answered. -/
structure Call where
  operation : Operation
  iterations : Nat
  answer : Answer

namespace Call

def succeeded (call : Call) : Bool := call.answer.result.toBool

/-- The measurement that a call came to, if it succeeded. -/
def measurement? (call : Call) : Option Measurement :=
  call.answer.result.toOption.map OperationRun.measurement

/-- What is shown of a call: its operation, and the throughput or that it failed. -/
def entry (call : Call) : Bytes := ReportText.entry call.operation.name call.measurement?

/-- The call behind an outcome of a benchmark. -/
def ofOutcome (iterations : Nat) (outcome : Outcome) : Call :=
  ⟨outcome.operation, iterations, outcome.toAnswer⟩

theorem succeeded_ofOutcome (iterations : Nat) (outcome : Outcome) :
    (ofOutcome iterations outcome).succeeded = !outcome.isFailure :=
  (Bool.not_not _).symm

theorem entry_ofOutcome (iterations : Nat) (outcome : Outcome) :
    (ofOutcome iterations outcome).entry = outcome.progress :=
  (ReportText.entry_eq outcome).symm

end Call

namespace Runner

variable {σ : Type}

/-- The calls that are due for a list of operations: one for each, in order, up to the first that fails
if a failure is to end the run. -/
structure Due (policy : FailurePolicy) (iterations : Nat) (operations : List Operation)
    (calls : List Call) : Prop where
  inOrder : calls.map Call.operation = operations.take calls.length
  iterations : ∀ call ∈ calls, call.iterations = iterations
  proceeds : policy = .proceed → calls.length = operations.length
  stops : policy = .abort → ∀ call ∈ calls.dropLast, call.succeeded = true
  goesOn : policy = .abort → (∀ call ∈ calls, call.succeeded = true) →
    calls.length = operations.length

/-- A failure among the calls ended the run. -/
abbrev Stopped (policy : FailurePolicy) (calls : List Call) : Prop :=
  policy = .abort ∧ ∃ call ∈ calls, call.succeeded = false

/-- A failure that ends the run is the only call that is made. -/
theorem due_failure {operation : Operation} {iterations : Nat} {answer : Answer}
    (hf : answer.result.toBool = false) (more : List Operation) :
    Due .abort iterations (operation :: more) [⟨operation, iterations, answer⟩] := by
  refine ⟨rfl, List.forall_mem_singleton.mpr rfl, nofun, fun _ => List.forall_mem_nil _, ?_⟩
  intro _ hall
  have hs : answer.result.toBool = true := hall _ List.mem_cons_self
  rw [hf] at hs
  cases hs

theorem Due.cons {policy : FailurePolicy} {operation : Operation} {iterations : Nat}
    {answer : Answer} {more : List Operation} {calls : List Call}
    (h : Due policy iterations more calls)
    (hgo : policy = .abort → answer.result.toBool = true) :
    Due policy iterations (operation :: more) (⟨operation, iterations, answer⟩ :: calls) := by
  refine ⟨?_, List.forall_mem_cons.mpr ⟨rfl, h.iterations⟩, ?_, ?_, ?_⟩
  · rw [List.map_cons, h.inOrder, List.length_cons, List.take_succ_cons]
  · exact fun hp => congrArg (· + 1) (h.proceeds hp)
  · intro hp call hc
    cases calls with
    | nil => cases hc
    | cons next later =>
      rw [List.dropLast_cons_cons, List.mem_cons] at hc
      rcases hc with rfl | hc
      · exact hgo hp
      · exact h.stops hp call hc
  · exact fun hp hall => congrArg (· + 1) (h.goesOn hp (List.forall_mem_cons.mp hall).2)

/-- The calls of a run are those that are due. -/
theorem due_runEach (run : Runner σ) (policy : FailurePolicy) (iterations : Nat)
    (operations : List Operation) (state : σ) :
    Due policy iterations operations
      ((run.runEach policy iterations operations state).1.map (Call.ofOutcome iterations)) := by
  induction operations generalizing state with
  | nil =>
    exact ⟨rfl, List.forall_mem_nil _, fun _ => rfl, fun _ => List.forall_mem_nil _,
      fun _ _ => rfl⟩
  | cons operation more ih =>
    rcases ends_or_goesOn policy (run operation iterations state).1 with ⟨rfl, hf⟩ | hgo
    · rw [runEach_of_failure hf]
      exact due_failure hf more
    · rw [runEach_of_goesOn hgo]
      exact (ih _).cons hgo

example :
    (Replay.runner.runEach .abort 5 [.ping, .set] ⟨[.error []], []⟩).2.calls = [(.ping, 5)] ∧
      (Replay.runner.runEach .proceed 5 [.ping, .set] ⟨[.error []], []⟩).2.calls =
        [(.ping, 5), (.set, 5)] := by decide

/-- The same driver with its calls written down beside its state. -/
def watched (run : Runner σ) : Runner (σ × List Call) :=
  fun operation iterations (state, calls) =>
    let (answer, state) := run operation iterations state
    (answer, state, calls ++ [⟨operation, iterations, answer⟩])

/-- Watching a driver changes neither its answers nor its states, and what is written down are the calls
behind the outcomes. -/
theorem runEach_watched (run : Runner σ) (policy : FailurePolicy) (iterations : Nat)
    (operations : List Operation) (state : σ) (past : List Call) :
    run.watched.runEach policy iterations operations (state, past) =
      ((run.runEach policy iterations operations state).1,
        (run.runEach policy iterations operations state).2,
        past ++ (run.runEach policy iterations operations state).1.map
          (Call.ofOutcome iterations)) := by
  induction operations generalizing state past with
  | nil => simp [runEach]
  | cons operation more ih =>
    have hsame : (run.watched operation iterations (state, past)).1 =
        (run operation iterations state).1 := rfl
    rcases ends_or_goesOn policy (run operation iterations state).1 with ⟨rfl, hf⟩ | hgo
    · rw [runEach_of_failure hf, runEach_of_failure (hsame ▸ hf)]
      rfl
    · rw [runEach_of_goesOn hgo, runEach_of_goesOn (hsame ▸ hgo)]
      have hlater := ih (run operation iterations state).2
        (past ++ [⟨operation, iterations, (run operation iterations state).1⟩])
      rw [List.append_assoc] at hlater
      have hstate : (run.watched operation iterations (state, past)).2 =
        ((run operation iterations state).2,
          past ++ [⟨operation, iterations, (run operation iterations state).1⟩]) := rfl
      rw [hstate, hlater, hsame]
      rfl

end Runner

/-- An operation has a measurement or is named among the failures, and not both. -/
theorem Outcome.completed_or_failed (outcome : Outcome) :
    (∃ measurement, outcome.measurement? = some measurement ∧ outcome.failed? = none) ∨
      (outcome.measurement? = none ∧ outcome.failed? = some outcome.operation.name) := by
  cases hresult : outcome.result with
  | error cause => exact .inr ⟨measurement?_of_error hresult, failed?_of_error hresult⟩
  | ok ran => exact .inl ⟨ran.measurement, measurement?_of_ok hresult, failed?_of_ok hresult⟩

theorem Outcome.measurement?_eq_none_iff (outcome : Outcome) :
    outcome.measurement? = none ↔ outcome.isFailure = true := by
  cases hresult : outcome.result with
  | error cause => exact iff_of_true (measurement?_of_error hresult) (isFailure_of_error hresult)
  | ok ran =>
    have hkept : outcome.isFailure = false := by
      rw [isFailure, hresult]
      rfl
    rw [measurement?_of_ok hresult, hkept]
    exact iff_of_false (Option.some_ne_none _) Bool.false_ne_true

theorem Verdict.ofAverage_eq_belowKillSwitch_iff (average : Float) :
    ofAverage average = .belowKillSwitch ↔ average < 30000 := by
  rw [ofAverage, killSwitch]
  split
  · exact iff_of_true rfl ‹_›
  · refine iff_of_false ?_ ‹_›
    split <;> exact nofun

/-- The workbench with the driver watched, behind some calls. -/
def Workbench.watched {σ : Type} (bench : Workbench σ) (calls : List Call) :
    Workbench (σ × List Call) where
  driver := (bench.driver, calls)
  output := bench.output
  log := bench.log
  summary := bench.summary

/-- What a benchmark hands over, shows and ends with is what the calls that it made came to. -/
structure Reflects {σ : Type} (settings : Settings) (calls : List Call) (before : Workbench σ)
    (ran : ExitCode × Workbench σ) : Prop where
  completed : ran.2.summary.completed = calls.filterMap Call.measurement?
  failed : ran.2.summary.failed =
    (calls.filter fun call => !call.succeeded).map fun call => call.operation.name
  inOneList : ran.2.summary.completed.length + ran.2.summary.failed.length = calls.length
  average : ran.2.summary.averageOpsPerSecond =
    if ran.2.summary.completed = [] then 0
    else (ran.2.summary.completed.map Measurement.opsPerSecond).foldl (· + ·) 0 /
      (ran.2.summary.completed.length : Float)
  output : ran.2.output = before.output ++ (ReportText.unlines (ReportText.banner settings) ++
    calls.flatMap Call.entry ++
      if Runner.Stopped settings.onFailure calls then []
      else ReportText.unlines (ReportText.results ran.2.summary.completed ran.2.summary.failed
        ran.2.summary.averageOpsPerSecond))
  exitCode : ran.1.toNat =
    if Runner.Stopped settings.onFailure calls ∨ ∀ call ∈ calls, call.succeeded = false then 1
    else if settings.strict = true ∧ ran.2.summary.averageOpsPerSecond < 30000 then 2 else 0

namespace Benchmark

theorem completed_eq (settings : Settings) (outcomes : List Outcome) :
    (Benchmark.mk settings outcomes).summary.completed =
      (outcomes.map (Call.ofOutcome settings.iterations)).filterMap Call.measurement? := by
  rw [List.filterMap_map]
  rfl

theorem failed_eq (settings : Settings) (outcomes : List Outcome) :
    (Benchmark.mk settings outcomes).summary.failed =
      ((outcomes.map (Call.ofOutcome settings.iterations)).filter fun call =>
        !call.succeeded).map fun call => call.operation.name := by
  show outcomes.filterMap Outcome.failed? = _
  induction outcomes with
  | nil => rfl
  | cons outcome more ih =>
    rw [List.filterMap_cons, List.map_cons, List.filter_cons, Call.succeeded_ofOutcome,
      Bool.not_not, Outcome.failed?]
    cases outcome.isFailure with
    | false => simpa using ih
    | true => simpa using ⟨rfl, ih⟩

theorem length_lists (settings : Settings) (outcomes : List Outcome) :
    (Benchmark.mk settings outcomes).summary.completed.length +
      (Benchmark.mk settings outcomes).summary.failed.length = outcomes.length := by
  show (outcomes.filterMap Outcome.measurement?).length +
    (outcomes.filterMap Outcome.failed?).length = outcomes.length
  induction outcomes with
  | nil => rfl
  | cons outcome more ih =>
    rcases outcome.completed_or_failed with ⟨_, hm, hf⟩ | ⟨hm, hf⟩
    · rw [List.filterMap_cons_some hm, List.filterMap_cons_none hf, List.length_cons,
        List.length_cons, Nat.add_right_comm, ih]
    · rw [List.filterMap_cons_none hm, List.filterMap_cons_some hf, List.length_cons,
        List.length_cons, ← Nat.add_assoc, ih]

theorem aborted_iff (settings : Settings) (outcomes : List Outcome) :
    (Benchmark.mk settings outcomes).aborted = true ↔
      Runner.Stopped settings.onFailure (outcomes.map (Call.ofOutcome settings.iterations)) := by
  have hcalls : (∃ call ∈ outcomes.map (Call.ofOutcome settings.iterations),
      call.succeeded = false) ↔ outcomes.any Outcome.isFailure = true := by
    simp only [List.any_eq_true, List.mem_map, exists_exists_and_eq_and,
      Call.succeeded_ofOutcome, Bool.not_eq_false']
  rw [Runner.Stopped, hcalls, aborted, Bool.and_eq_true, beq_iff_eq]

theorem completed_isEmpty_iff (settings : Settings) (outcomes : List Outcome) :
    (Benchmark.mk settings outcomes).summary.completed.isEmpty = true ↔
      ∀ call ∈ outcomes.map (Call.ofOutcome settings.iterations), call.succeeded = false := by
  rw [List.isEmpty_iff, List.forall_mem_map]
  refine List.filterMap_eq_nil_iff.trans (forall₂_congr fun outcome _ => ?_)
  rw [Call.succeeded_ofOutcome, Bool.not_eq_false']
  exact outcome.measurement?_eq_none_iff

theorem report_eq (settings : Settings) (outcomes : List Outcome) :
    (Benchmark.mk settings outcomes).report =
      ReportText.unlines (ReportText.banner settings) ++
        (outcomes.map (Call.ofOutcome settings.iterations)).flatMap Call.entry ++
        if Runner.Stopped settings.onFailure (outcomes.map (Call.ofOutcome settings.iterations)) then []
        else
          let summary := (Benchmark.mk settings outcomes).summary
          ReportText.unlines
            (ReportText.results summary.completed summary.failed summary.average) := by
  have hentries : outcomes.flatMap Outcome.progress =
      (outcomes.map (Call.ofOutcome settings.iterations)).flatMap Call.entry := by
    rw [List.flatMap_map]
    exact congrArg outcomes.flatMap (funext (Call.entry_ofOutcome _)).symm
  rw [report, hentries, ReportText.banner_eq, ReportText.results_eq,
    if_congr (aborted_iff settings outcomes) rfl rfl]

theorem exitCode_eq (settings : Settings) (outcomes : List Outcome) :
    (Benchmark.mk settings outcomes).exitCode.toNat =
      if Runner.Stopped settings.onFailure (outcomes.map (Call.ofOutcome settings.iterations)) ∨
          ∀ call ∈ outcomes.map (Call.ofOutcome settings.iterations), call.succeeded = false then 1
      else if settings.strict = true ∧ (Benchmark.mk settings outcomes).summary.average < 30000 then 2
      else 0 := by
  have hfailure := or_congr (aborted_iff settings outcomes)
    (completed_isEmpty_iff settings outcomes)
  have hstrict := and_congr_right' (a := settings.strict = true)
    (Verdict.ofAverage_eq_belowKillSwitch_iff
      (Benchmark.mk settings outcomes).summary.average)
  rw [← if_congr hfailure rfl (if_congr hstrict rfl rfl)]
  simp only [exitCode, Bool.or_eq_true, Bool.and_eq_true, beq_iff_eq]
  split_ifs <;> rfl

end Benchmark

theorem Summary.averageThroughput_eq (completed : List Measurement) :
    averageThroughput completed =
      if completed = [] then 0
      else (completed.map Measurement.opsPerSecond).foldl (· + ·) 0 / (completed.length : Float) := by
  rw [averageThroughput, List.foldl_map, if_congr List.isEmpty_iff rfl rfl]

/-- A benchmark that is made of a list of outcomes reflects the calls behind them. -/
theorem Workbench.reflects_settle {σ : Type} (settings : Settings) (outcomes : List Outcome)
    (bench : Workbench σ) (driver : σ) :
    Reflects settings (outcomes.map (Call.ofOutcome settings.iterations)) bench
      (bench.settle (⟨settings, outcomes⟩, driver)) where
  completed := Benchmark.completed_eq settings outcomes
  failed := Benchmark.failed_eq settings outcomes
  inOneList := by
    rw [List.length_map]
    exact Benchmark.length_lists settings outcomes
  average := Summary.averageThroughput_eq _
  output := congrArg (bench.output ++ ·) (Benchmark.report_eq settings outcomes)
  exitCode := Benchmark.exitCode_eq settings outcomes

/-- The loop of a benchmark calls its driver once for each configured operation, in order and with the
configured iterations, up to the first failure if the policy is to abort. What it hands over, shows and
ends with is what these calls came to, and is what a benchmark makes of the list of outcomes. -/
theorem Settings.benchmark_calls {σ : Type} (settings : Settings) (run : Runner σ)
    (bench : Workbench σ) :
    ∃ calls : List Call,
      settings.runBenchmark run.watched (bench.watched []) =
        ((settings.runBenchmark run bench).1, (settings.runBenchmark run bench).2.watched calls) ∧
      Runner.Due settings.onFailure settings.iterations settings.operations calls ∧
      Reflects settings calls bench (settings.runBenchmark run bench) ∧
      settings.runBenchmark run bench = bench.settle (settings.benchmark run bench.driver) := by
  refine ⟨_, ?_, run.due_runEach _ _ _ bench.driver, ?_, runBenchmark_eq settings run bench⟩
  · rw [runBenchmark_eq, runBenchmark_eq, benchmark, Workbench.watched, Runner.runEach_watched]
    rfl
  · rw [runBenchmark_eq]
    exact Workbench.reflects_settle settings _ bench _

/-- Of three operations the second fails. Under the policy to go on the third is called all the same, and
the average of the two others is below the kill switch. Under the other policy the failure ends the
benchmark, which names it and shows no results. -/
theorem Settings.benchmark_calls_second_fails :
    let ran := fun (operation : Operation) (opsPerSecond : Float) =>
      OperationRun.mk [] { operation := operation.name, opsPerSecond := opsPerSecond }
    let settings := fun onFailure : FailurePolicy =>
      ({ operations := [.ping, .set, .get], iterations := 5, strict := true,
         onFailure := onFailure } : Settings)
    let bench : Workbench Replay :=
      { driver := ⟨[.ok (ran .ping 20000), .error (utf8 "recv failed"), .ok (ran .get 30000)], []⟩
        summary := .of [] [] }
    let proceeded := (settings .proceed).runBenchmark Replay.runner bench
    let aborted := (settings .abort).runBenchmark Replay.runner bench
    (proceeded.2.driver.calls = [(.ping, 5), (.set, 5), (.get, 5)] ∧
      proceeded.2.summary.failed = [utf8 "SET"] ∧ proceeded.2.summary.averageOpsPerSecond = 25000 ∧
      proceeded.1.toNat = 2) ∧
    (aborted.2.driver.calls = [(.ping, 5), (.set, 5)] ∧
      aborted.2.summary.failed = [utf8 "SET"] ∧ aborted.1.toNat = 1 ∧
      aborted.2.output = ReportText.unlines (ReportText.banner (settings .abort)) ++
        utf8 "Benchmarking PING... ✓ 20,000 ops/sec\nBenchmarking SET... FAILED\n") ∧
    ∃ calls : List Call,
      calls.map (fun call => (call.operation, call.answer.result.toBool)) =
        [(.ping, true), (.set, false)] ∧
      Reflects (settings .abort) calls bench aborted := by
  intro ran settings bench proceeded aborted
  obtain ⟨calls, hwatched, -, hreflects, -⟩ :=
    benchmark_calls (settings .abort) Replay.runner bench
  have hcalls : calls =
      ((settings .abort).runBenchmark Replay.runner.watched (bench.watched [])).2.driver.2 := by
    rw [hwatched]
    rfl
  refine ⟨by decide +kernel, by decide +kernel, calls, ?_, hreflects⟩
  rw [hcalls]
  decide +kernel

end RespLoad
