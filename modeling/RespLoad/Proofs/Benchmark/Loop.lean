import RespLoad.Benchmark

/-!
# The loop of a benchmark

The loop over the operations as it works: it prints an entry piece by piece, calls the driver, logs, and
carries the measurements and the names of the failures along. A failure under the policy to abort leaves
it in its midst, with a summary of its own and without a section of results; otherwise the summary is made
at the end and shown. It comes to what `Benchmark` takes of the list of outcomes at once.
-/
namespace RespLoad

/-- A summary as it is handed over, with the average that was taken when it was made. -/
structure RunSummary extends Summary where
  averageOpsPerSecond : Float

/-- Sums up what was carried along. -/
def RunSummary.of (completed : List Measurement) (failed : List Bytes) : RunSummary where
  completed := completed
  failed := failed
  averageOpsPerSecond := Summary.averageThroughput completed

/-- What a benchmark works on: the driver, the output and the log that lie behind, and the caller's
summary. -/
structure Workbench (σ : Type) where
  driver : σ
  output : Bytes := []
  log : List LogEntry := []
  summary : RunSummary

namespace Workbench

variable {σ : Type}

def print (text : Bytes) : StateM (Workbench σ) Unit :=
  modify fun bench => { bench with output := bench.output ++ text }

def enter (entry : LogEntry) : StateM (Workbench σ) Unit :=
  modify fun bench => { bench with log := bench.log ++ [entry] }

def handOver (summary : RunSummary) : StateM (Workbench σ) Unit :=
  modify fun bench => { bench with summary := summary }

/-- Calls the driver, which may log on its own. -/
def call (run : Runner σ) (operation : Operation) (iterations : Nat) :
    StateM (Workbench σ) (Except Bytes OperationRun) :=
  modifyGet fun bench =>
    let (answer, driver) := run operation iterations bench.driver
    (answer.result, { bench with driver := driver, log := bench.log ++ answer.log })

section Bind

variable {α : Type} (next : Unit → StateM (Workbench σ) α) (bench : Workbench σ)

theorem print_bind (text : Bytes) :
    (print text >>= next) bench = next () { bench with output := bench.output ++ text } := rfl

theorem enter_bind (entry : LogEntry) :
    (enter entry >>= next) bench = next () { bench with log := bench.log ++ [entry] } := rfl

theorem handOver_bind (summary : RunSummary) :
    (handOver summary >>= next) bench = next () { bench with summary := summary } := rfl

theorem call_bind (run : Runner σ) (operation : Operation) (iterations : Nat)
    (next : Except Bytes OperationRun → StateM (Workbench σ) α) :
    (call run operation iterations >>= next) bench =
      let answered := run operation iterations bench.driver
      next answered.1.result
        { bench with driver := answered.2, log := bench.log ++ answered.1.log } := rfl

end Bind

end Workbench

namespace Settings

variable {σ : Type}

open Workbench

/-- The exit code of a benchmark that came to its end. -/
def judge (settings : Settings) (summary : RunSummary) : ExitCode :=
  if summary.completed.isEmpty then .failure
  else if settings.strict &&
      Verdict.ofAverage summary.averageOpsPerSecond == .belowKillSwitch then .belowKillSwitch
  else .success

/-- Makes the summary and shows it, and judges the benchmark. -/
def finish (settings : Settings) (completed : List Measurement) (failed : List Bytes) :
    StateM (Workbench σ) ExitCode := do
  let summary := RunSummary.of completed failed
  handOver summary
  print (Report.results summary.toSummary)
  return settings.judge summary

/-- Runs the operations that are left, behind those that completed and those that failed. -/
def runOperations (settings : Settings) (run : Runner σ) :
    List Operation → List Measurement → List Bytes → StateM (Workbench σ) ExitCode
  | [], completed, failed => settings.finish completed failed
  | operation :: more, completed, failed => do
    print (Report.started operation.name)
    match ← call run operation settings.iterations with
    | .error cause => do
      print Report.failed
      enter ⟨.error, operation.name ++ utf8 " benchmark failed: " ++ cause⟩
      match settings.onFailure with
      | .abort => do
        enter ⟨.error, utf8 "aborting run (on-error abort)"⟩
        handOver (.of completed [operation.name])
        return .failure
      | .proceed => runOperations settings run more completed (failed ++ [operation.name])
    | .ok ran => do
      print (Report.completed ran.measurement)
      enter ⟨.debug, operation.name ++ utf8 ": " ++ Decimal.ofNat ran.samples.length ++
        utf8 " samples in " ++ Number.fixed 6 ran.measurement.totalSeconds ++ utf8 " s"⟩
      runOperations settings run more (completed ++ [ran.measurement]) failed

/-- Runs a benchmark: its opening entry and banner, and all its operations. -/
def runBenchmark (settings : Settings) (run : Runner σ) : StateM (Workbench σ) ExitCode := do
  let endpoint : Endpoint := ⟨settings.host, settings.port⟩
  enter ⟨.info, utf8 "benchmarking " ++ endpoint.text ++ utf8 " with " ++
    Decimal.ofNat settings.iterations ++ utf8 " iterations per operation"⟩
  print (Report.banner settings)
  settings.runOperations run settings.operations [] []

end Settings

namespace Runner

section RunEach

variable {σ : Type} {run : Runner σ} {policy : FailurePolicy} {iterations : Nat}
  {operation : Operation} {more : List Operation} {state : σ}

/-- Either a call ends the run, or the run goes on behind it. -/
theorem ends_or_goesOn (policy : FailurePolicy) (answer : Answer) :
    (policy = .abort ∧ answer.result.toBool = false) ∨
      (policy = .abort → answer.result.toBool = true) := by
  cases policy <;> cases answer.result.toBool <;> simp

theorem runEach_of_failure (hf : (run operation iterations state).1.result.toBool = false) :
    run.runEach .abort iterations (operation :: more) state =
      ([{ (run operation iterations state).1 with operation := operation }],
        (run operation iterations state).2) := by
  simp [runEach, Outcome.isFailure, hf]

theorem runEach_of_goesOn
    (hgo : policy = .abort → (run operation iterations state).1.result.toBool = true) :
    run.runEach policy iterations (operation :: more) state =
      ({ (run operation iterations state).1 with operation := operation } ::
          (run.runEach policy iterations more (run operation iterations state).2).1,
        (run.runEach policy iterations more (run operation iterations state).2).2) := by
  have hstop : ¬ ((!(run operation iterations state).1.result.toBool) &&
      policy == .abort) = true := by
    cases policy with
    | abort => simp [hgo rfl]
    | proceed => simp
  simp only [runEach, Outcome.isFailure]
  exact if_neg hstop

end RunEach

end Runner

namespace Outcome

variable {outcome : Outcome} {cause : Bytes} {ran : OperationRun}

theorem isFailure_of_error (h : outcome.result = .error cause) : outcome.isFailure = true := by
  rw [isFailure, h]
  rfl

theorem measurement?_of_error (h : outcome.result = .error cause) : outcome.measurement? = none := by
  rw [measurement?, h]
  rfl

theorem failed?_of_error (h : outcome.result = .error cause) :
    outcome.failed? = some outcome.operation.name :=
  if_pos (isFailure_of_error h)

theorem measurement?_of_ok (h : outcome.result = .ok ran) :
    outcome.measurement? = some ran.measurement := by
  rw [measurement?, h]
  rfl

theorem failed?_of_ok (h : outcome.result = .ok ran) : outcome.failed? = none := by
  rw [failed?, isFailure, h]
  rfl

theorem exists_error (outcome : Outcome) (h : outcome.result.toBool = false) :
    ∃ cause, outcome.result = .error cause := by
  cases hresult : outcome.result with
  | error cause => exact ⟨cause, rfl⟩
  | ok ran =>
    rw [hresult] at h
    cases h

end Outcome

namespace Workbench

variable {σ : Type}

/-- The bench behind a benchmark that is made of the list of outcomes, and its exit code. -/
def settle (bench : Workbench σ) (ran : Benchmark × σ) : ExitCode × Workbench σ :=
  (ran.1.exitCode,
    { driver := ran.2
      output := bench.output ++ ran.1.report
      log := bench.log ++ ran.1.log
      summary := .of ran.1.summary.completed ran.1.summary.failed })

/-- The bench behind an outcome, when the driver has gone to its next state: the entry of the operation is
printed, and what the driver logged and what is logged of it is in the log. -/
def past (bench : Workbench σ) (policy : FailurePolicy) (outcome : Outcome) (driver : σ) :
    Workbench σ where
  driver := driver
  output := bench.output ++ outcome.progress
  log := bench.log ++ (outcome.log ++ outcome.closingLog policy)
  summary := bench.summary

end Workbench

namespace Settings

variable {σ : Type} {run : Runner σ} {settings : Settings} {operation : Operation}
  {more : List Operation} {bench : Workbench σ} {answer : Answer} {driver : σ}

section Turn

variable (completed : List Measurement) (failed : List Bytes)

/-- A failure under the policy to abort ends the loop, with a summary that names it alone. -/
theorem runOperations_of_abort {cause : Bytes}
    (hcall : run operation settings.iterations bench.driver = (answer, driver))
    (hresult : answer.result = .error cause) (habort : settings.onFailure = .abort) :
    settings.runOperations run (operation :: more) completed failed bench =
      (.failure, { bench.past .abort { answer with operation := operation } driver with
        summary := .of completed [operation.name] }) := by
  simp only [runOperations, habort, Workbench.print_bind, Workbench.call_bind, hcall, hresult,
    Workbench.enter_bind, Workbench.handOver_bind, Workbench.past, Outcome.progress,
    Outcome.closingLog, List.append_assoc, List.singleton_append]
  rfl

theorem runOperations_of_proceed {cause : Bytes}
    (hcall : run operation settings.iterations bench.driver = (answer, driver))
    (hresult : answer.result = .error cause) (hproceed : settings.onFailure = .proceed) :
    settings.runOperations run (operation :: more) completed failed bench =
      settings.runOperations run more completed (failed ++ [operation.name])
        (bench.past .proceed { answer with operation := operation } driver) := by
  simp only [runOperations, hproceed, Workbench.print_bind, Workbench.call_bind, hcall, hresult,
    Workbench.enter_bind, Workbench.past, Outcome.progress, Outcome.closingLog, List.append_assoc]

theorem runOperations_of_ok {ran : OperationRun}
    (hcall : run operation settings.iterations bench.driver = (answer, driver))
    (hresult : answer.result = .ok ran) :
    settings.runOperations run (operation :: more) completed failed bench =
      settings.runOperations run more (completed ++ [ran.measurement]) failed
        (bench.past settings.onFailure { answer with operation := operation } driver) := by
  simp only [runOperations, Workbench.print_bind, Workbench.call_bind, hcall, hresult,
    Workbench.enter_bind, Workbench.past, Outcome.progress, Outcome.closingLog, List.append_assoc]

end Turn

/-- Unless a call ends the loop, its outcome joins those behind it. -/
theorem runOperations_of_goesOn
    (hcall : run operation settings.iterations bench.driver = (answer, driver))
    (hgo : settings.onFailure = .abort → answer.result.toBool = true) (past : List Outcome) :
    let outcome : Outcome := { answer with operation := operation }
    settings.runOperations run (operation :: more) (past.filterMap Outcome.measurement?)
        (past.filterMap Outcome.failed?) bench =
      settings.runOperations run more ((past ++ [outcome]).filterMap Outcome.measurement?)
        ((past ++ [outcome]).filterMap Outcome.failed?)
        (bench.past settings.onFailure outcome driver) := by
  intro outcome
  simp only [List.filterMap_append]
  cases hresult : answer.result with
  | ok ran =>
    have hmeasured : outcome.measurement? = some ran.measurement := Outcome.measurement?_of_ok hresult
    have hfailed : outcome.failed? = none := Outcome.failed?_of_ok hresult
    rw [runOperations_of_ok _ _ hcall hresult, List.filterMap_cons_some hmeasured,
      List.filterMap_cons_none hfailed, List.filterMap_nil, List.filterMap_nil, List.append_nil]
  | error cause =>
    have hproceed : settings.onFailure = .proceed := by
      cases hpolicy : settings.onFailure with
      | proceed => rfl
      | abort =>
        have hsucceeded := hgo hpolicy
        rw [hresult] at hsucceeded
        cases hsucceeded
    have hmeasured : outcome.measurement? = none := Outcome.measurement?_of_error hresult
    have hfailed : outcome.failed? = some operation.name := Outcome.failed?_of_error hresult
    rw [runOperations_of_proceed _ _ hcall hresult hproceed, hproceed,
      List.filterMap_cons_none hmeasured, List.filterMap_cons_some hfailed, List.filterMap_nil,
      List.filterMap_nil, List.append_nil]

/-- At the end of a benchmark that was not aborted, the summary is made and shown and the exit code is
that of the benchmark. -/
theorem finish_eq {benchmark : Benchmark} (hruns : benchmark.aborted = false) (bench : Workbench σ) :
    benchmark.settings.finish benchmark.summary.completed benchmark.summary.failed bench =
      (benchmark.exitCode, { bench with
        output := bench.output ++ Report.results benchmark.summary
        summary := .of benchmark.summary.completed benchmark.summary.failed }) := by
  have hjudged : benchmark.settings.judge
      (.of benchmark.summary.completed benchmark.summary.failed) = benchmark.exitCode := by
    rw [Benchmark.exitCode, hruns, Bool.false_or]
    rfl
  rw [← hjudged]
  rfl

/-- A benchmark with none that failed under the policy to abort was not aborted. -/
theorem aborted_eq_false {past : List Outcome}
    (hpast : settings.onFailure = .abort → ∀ outcome ∈ past, outcome.isFailure = false) :
    (Benchmark.mk settings past).aborted = false := by
  rw [Benchmark.aborted, Bool.and_eq_false_imp, beq_iff_eq]
  intro habort
  rw [List.any_eq_false]
  intro outcome ho
  rw [hpast habort outcome ho]
  exact Bool.false_ne_true

/-- When a failure ended a benchmark, its exit code and its summary are those that the loop has at hand
when it is left. -/
theorem ended_eq {outcome : Outcome} {cause : Bytes} (hresult : outcome.result = .error cause)
    (habort : settings.onFailure = .abort) {past : List Outcome}
    (hpast : ∀ before ∈ past, before.isFailure = false) :
    let benchmark : Benchmark := ⟨settings, past ++ [outcome]⟩
    benchmark.aborted = true ∧ benchmark.exitCode = .failure ∧
      benchmark.summary = ⟨past.filterMap Outcome.measurement?, [outcome.operation.name]⟩ := by
  intro benchmark
  have haborted : benchmark.aborted = true := by
    show (settings.onFailure == .abort && (past ++ [outcome]).any Outcome.isFailure) = true
    rw [habort, List.any_append, List.any_cons, Outcome.isFailure_of_error hresult, Bool.true_or,
      Bool.or_true]
    rfl
  have hkept : past.filterMap Outcome.failed? = [] := by
    rw [List.filterMap_eq_nil_iff]
    intro before hb
    rw [Outcome.failed?, hpast before hb]
    rfl
  refine ⟨haborted, ?_, ?_⟩
  · rw [Benchmark.exitCode, haborted]
    rfl
  · show Summary.mk ((past ++ [outcome]).filterMap Outcome.measurement?)
      ((past ++ [outcome]).filterMap Outcome.failed?) = _
    rw [List.filterMap_append, List.filterMap_append, hkept,
      List.filterMap_cons_none (Outcome.measurement?_of_error hresult),
      List.filterMap_cons_some (Outcome.failed?_of_error hresult), List.filterMap_nil,
      List.filterMap_nil, List.append_nil, List.nil_append]

/-- The loop, behind the outcomes so far, comes to the benchmark of these and of those that follow. Under
the policy to abort none of those behind it has failed. -/
theorem runOperations_eq (settings : Settings) (run : Runner σ) (operations : List Operation)
    (past : List Outcome) (bench : Workbench σ)
    (hpast : settings.onFailure = .abort → ∀ outcome ∈ past, outcome.isFailure = false) :
    settings.runOperations run operations (past.filterMap Outcome.measurement?)
        (past.filterMap Outcome.failed?) bench =
      let ran := run.runEach settings.onFailure settings.iterations operations bench.driver
      let benchmark : Benchmark := ⟨settings, past ++ ran.1⟩
      (benchmark.exitCode,
        { driver := ran.2
          output := bench.output ++ (ran.1.flatMap Outcome.progress ++
            if benchmark.aborted then [] else Report.results benchmark.summary)
          log := bench.log ++ ran.1.flatMap fun outcome =>
            outcome.log ++ outcome.closingLog settings.onFailure
          summary := .of benchmark.summary.completed benchmark.summary.failed }) := by
  induction operations generalizing past bench with
  | nil =>
    have hruns := aborted_eq_false hpast
    refine (finish_eq hruns bench).trans ?_
    simp only [Runner.runEach, List.append_nil, hruns, List.flatMap_nil, List.nil_append,
      Bool.false_eq_true, if_false]
  | cons operation more ih =>
    cases hcall : run operation settings.iterations bench.driver with
    | mk answer driver =>
    have hcalled : (run operation settings.iterations bench.driver).1 = answer := by rw [hcall]
    rcases Runner.ends_or_goesOn settings.onFailure answer with ⟨habort, hf⟩ | hgo
    · let outcome : Outcome := { answer with operation := operation }
      obtain ⟨cause, hresult⟩ := outcome.exists_error hf
      have hends : run.runEach settings.onFailure settings.iterations (operation :: more)
          bench.driver = ([outcome], driver) := by
        rw [habort, Runner.runEach_of_failure (hcalled ▸ hf), hcall]
      obtain ⟨haborted, hexit, hsummary⟩ := ended_eq hresult habort (hpast habort)
      rw [runOperations_of_abort _ _ hcall hresult habort, hends]
      simp only [haborted, hexit, hsummary, Workbench.past, habort, if_true, List.flatMap_singleton,
        List.append_nil, outcome]
    · rw [runOperations_of_goesOn hcall hgo, ih]
      · rw [Runner.runEach_of_goesOn (hcalled ▸ hgo), hcall]
        simp only [Workbench.past, List.append_assoc, List.flatMap_cons, List.singleton_append]
      · intro habort outcome ho
        rw [List.mem_append, List.mem_singleton] at ho
        rcases ho with ho | rfl
        · exact hpast habort outcome ho
        · show (!answer.result.toBool) = false
          rw [hgo habort]
          rfl

/-- The loop comes to the benchmark that is made of the list of outcomes. -/
theorem runBenchmark_eq (settings : Settings) (run : Runner σ) (bench : Workbench σ) :
    settings.runBenchmark run bench = bench.settle (settings.benchmark run bench.driver) := by
  let endpoint : Endpoint := ⟨settings.host, settings.port⟩
  let opened : Workbench σ := { bench with
    output := bench.output ++ Report.banner settings
    log := bench.log ++ [⟨.info, utf8 "benchmarking " ++ endpoint.text ++ utf8 " with " ++
      Decimal.ofNat settings.iterations ++ utf8 " iterations per operation"⟩] }
  have hopen : settings.runBenchmark run bench =
      settings.runOperations run settings.operations [] [] opened := rfl
  have hloop := runOperations_eq settings run settings.operations [] opened
    (fun _ => List.forall_mem_nil _)
  rw [List.filterMap_nil, List.filterMap_nil] at hloop
  rw [hopen, hloop]
  simp only [Workbench.settle, benchmark, Benchmark.report, Benchmark.log, opened,
    List.nil_append, List.append_assoc, List.singleton_append]
  rfl

end Settings

end RespLoad
