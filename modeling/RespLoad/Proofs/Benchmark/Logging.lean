import RespLoad.Proofs.Benchmark.RunControl
import RespLoad.Proofs.Driver.LoggingThreads

/-!
# The log level

A benchmark as it writes its log, entry by entry, to a logger whose threshold was set before. Whatever the
threshold is, it comes to what `Settings.benchmarkOn` comes to, and has written those entries of its log
that the threshold shows. So a lower level takes entries from the log and changes nothing else. With
several clients the entries of one operation may come in another order.
-/
namespace RespLoad

/-- The levels in the order of severity, the most severe first. -/
def LogLevel.bySeverity : List LogLevel := [.error, .warn, .info, .debug]

/-- A lower level is a more severe one. -/
instance : LE LogLevel :=
  ⟨fun a b => LogLevel.bySeverity.idxOf a ≤ LogLevel.bySeverity.idxOf b⟩

instance (a b : LogLevel) : Decidable (a ≤ b) :=
  inferInstanceAs (Decidable (LogLevel.bySeverity.idxOf a ≤ LogLevel.bySeverity.idxOf b))

theorem LogLevel.rank_le_iff {a b : LogLevel} : a.rank ≤ b.rank ↔ a ≤ b := by
  cases a <;> cases b <;> decide

/-- What a threshold shows are the entries whose level does not exceed it. -/
theorem LogEntry.isShown_eq (threshold : LogLevel) :
    isShown threshold = fun entry => decide (entry.level ≤ threshold) :=
  funext fun _ => decide_eq_decide.mpr LogLevel.rank_le_iff

theorem LogEntry.filter_le {quiet loud : LogLevel} (h : quiet ≤ loud) (entries : List LogEntry) :
    (entries.filter (·.level ≤ loud)).filter (·.level ≤ quiet) =
      entries.filter (·.level ≤ quiet) := by
  have hshown := filter_isShown (LogLevel.rank_le_iff.mpr h) entries
  rwa [isShown_eq, isShown_eq] at hshown

/-- The outcome of a call. Its entries have gone to the logger. -/
def LoggedCall.outcome (call : LoggedCall) (operation : Operation) : Outcome where
  result := call.result.mapError RunError.message
  log := []
  operation := operation

/-- The state of a benchmark after one call more. -/
def Progress.after (progress : Progress) (call : LoggedCall) : Progress where
  network := call.network
  connections := progress.connections ++ call.connections

namespace Settings

/-- What is logged before anything is run. -/
def openingEntry (settings : Settings) : LogEntry :=
  ⟨.info, utf8 "benchmarking " ++ Endpoint.text ⟨settings.host, settings.port⟩ ++ utf8 " with " ++
    Decimal.ofNat settings.iterations ++ utf8 " iterations per operation"⟩

/-- Runs operations in order and writes the log: each call is one of the driver's, and its closing entries
follow those that it wrote itself. -/
inductive RunsLogging (settings : Settings) :
    List Operation → Progress → Logger → List Outcome → Progress → Logger → Prop
  | done (progress : Progress) (logger : Logger) :
      RunsLogging settings [] progress logger [] progress logger
  | aborts {operation : Operation} {more : List Operation} {progress : Progress} {logger : Logger}
      {call : LoggedCall}
      (called : Driver.CallsLogging settings.target operation settings.iterations progress.network
        logger (Driver.choose settings.clients) call)
      (failed : call.result.toBool = false) (policy : settings.onFailure = .abort) :
      RunsLogging settings (operation :: more) progress logger [call.outcome operation]
        (progress.after call)
        (call.logger.logEach ((call.outcome operation).closingLog settings.onFailure))
  | goesOn {operation : Operation} {more : List Operation} {progress later : Progress}
      {logger written : Logger} {call : LoggedCall} {outcomes : List Outcome}
      (called : Driver.CallsLogging settings.target operation settings.iterations progress.network
        logger (Driver.choose settings.clients) call)
      (going : settings.onFailure = .abort → call.result.toBool = true)
      (rest : RunsLogging settings more (progress.after call)
        (call.logger.logEach ((call.outcome operation).closingLog settings.onFailure))
        outcomes later written) :
      RunsLogging settings (operation :: more) progress logger
        (call.outcome operation :: outcomes) later written

/-- A benchmark that writes its log: from a network and a logger to what it comes to, what is left, and
the logger. -/
def BenchmarkLogging (settings : Settings) (network : Network) (logger : Logger)
    (benchmark : Benchmark) (progress : Progress) (written : Logger) : Prop :=
  benchmark.settings = settings ∧
    settings.RunsLogging settings.operations { network := network }
      (logger.log settings.openingEntry) benchmark.outcomes progress written

end Settings

/-- The outcome without the entries of its call. -/
def Outcome.unlogged (outcome : Outcome) : Outcome := { outcome with log := [] }

/-- All that a list of outcomes logs. -/
def Outcome.logged (policy : FailurePolicy) (outcomes : List Outcome) : List LogEntry :=
  outcomes.flatMap fun outcome => outcome.log ++ outcome.closingLog policy

/-- A call comes to what the runner comes to, its entries apart. -/
theorem Driver.CallsLogging.runner {driver : Driver} {target : Target} {operation : Operation}
    {iterations : Nat} {progress : Progress} {logger : Logger} {call : LoggedCall}
    (h : Driver.CallsLogging target operation iterations progress.network logger driver call) :
    let step := driver.runner target operation iterations progress
    let outcome : Outcome := { step.1 with operation := operation }
    call.outcome operation = outcome.unlogged ∧ call.result.toBool = step.1.result.toBool ∧
      progress.after call = step.2 ∧
      ∃ reported, call.logger = logger.logEach reported ∧ reported.Perm outcome.log ∧
        (driver = .sequential → reported = outcome.log) := by
  intro step outcome
  obtain ⟨reported, rfl, hentries, horder⟩ := h.spec
  have hbool : ∀ result : Except RunError OperationRun,
      result.toBool = (result.mapError RunError.message).toBool := by
    intro result
    cases result <;> rfl
  exact ⟨rfl, hbool _, rfl, reported, rfl, hentries, horder⟩

namespace Settings

theorem exists_runsLogging (settings : Settings) (operations : List Operation) (progress : Progress)
    (logger : Logger) :
    ∃ outcomes later written,
      settings.RunsLogging operations progress logger outcomes later written := by
  induction operations generalizing progress logger with
  | nil => exact ⟨_, _, _, .done progress logger⟩
  | cons operation more ih =>
    obtain ⟨call, hcall⟩ := Driver.exists_callsLogging (Driver.choose settings.clients)
      settings.target operation settings.iterations progress.network logger
    obtain ⟨outcomes, later, written, hrest⟩ := ih (progress.after call)
      (call.logger.logEach ((call.outcome operation).closingLog settings.onFailure))
    by_cases hends : settings.onFailure = .abort ∧ call.result.toBool = false
    · exact ⟨_, _, _, .aborts hcall hends.2 hends.1⟩
    · have hgoes : settings.onFailure = .abort → call.result.toBool = true := by
        intro hpolicy
        rw [← Bool.not_eq_false]
        exact fun hfailed => hends ⟨hpolicy, hfailed⟩
      exact ⟨_, _, _, .goesOn hcall hgoes hrest⟩

/-- The run is that of the runner, and the logger has been given what the outcomes of the runner log, in
that order if there is one client only. -/
theorem RunsLogging.spec {settings : Settings} {operations : List Operation}
    {progress later : Progress} {logger written : Logger} {outcomes : List Outcome}
    (h : settings.RunsLogging operations progress logger outcomes later written) :
    let pure := ((Driver.choose settings.clients).runner settings.target).runEach
      settings.onFailure settings.iterations operations progress
    outcomes = pure.1.map Outcome.unlogged ∧ later = pure.2 ∧
      ∃ reported, written = logger.logEach reported ∧
        reported.Perm (Outcome.logged settings.onFailure pure.1) ∧
        (settings.clients ≤ 1 → reported = Outcome.logged settings.onFailure pure.1) := by
  induction h with
  | done progress logger => exact ⟨rfl, rfl, [], rfl, .nil, fun _ => rfl⟩
  | @aborts operation more progress logger call called failed policy =>
    obtain ⟨houtcome, hresult, hprogress, reported, hlogger, hentries, horder⟩ := called.runner
    rw [hresult] at failed
    rw [houtcome, hlogger, policy, Runner.runEach_of_failure failed]
    refine ⟨rfl, hprogress, _, (Logger.logEach_append _ _ _).symm, ?_, ?_⟩
    · rw [Outcome.logged, List.flatMap_singleton]
      exact hentries.append_right _
    · intro hone
      rw [Outcome.logged, List.flatMap_singleton, horder (if_pos hone)]
      rfl
  | @goesOn operation more progress later logger written call outcomes called going rest ih =>
    obtain ⟨houtcome, hresult, hprogress, reported, hlogger, hentries, horder⟩ := called.runner
    rw [hresult] at going
    rw [Runner.runEach_of_goesOn going]
    -- The rest starts with the logger that has been given the entries of this call.
    obtain ⟨houtcomes, hlater, others, hwritten, hothers, hrestorder⟩ := ih
    rw [hprogress] at houtcomes hlater hothers hrestorder
    rw [houtcome, hlogger, ← Logger.logEach_append, ← Logger.logEach_append] at hwritten
    refine ⟨?_, hlater, _, hwritten, ?_, ?_⟩
    · rw [houtcome, houtcomes]
      rfl
    · rw [Outcome.logged, List.flatMap_cons, ← List.append_assoc]
      exact (hentries.append_right _).append hothers
    · intro hone
      rw [Outcome.logged, List.flatMap_cons, horder (if_pos hone), hrestorder hone,
        ← List.append_assoc]
      rfl

end Settings

/-- The entries of a log whose level does not exceed the threshold, whatever the order in which they were
reported. -/
structure WrittenUnder (threshold : LogLevel) (clients : Int) (log written : List LogEntry) :
    Prop where
  entries : written.Perm (log.filter (·.level ≤ threshold))
  order : clients ≤ 1 → written = log.filter (·.level ≤ threshold)

/-- Under any threshold a benchmark comes to the same, and has written what the threshold shows of its
log. -/
theorem Settings.BenchmarkLogging.spec {settings : Settings} {network : Network}
    {threshold : LogLevel} {benchmark : Benchmark} {progress : Progress} {written : Logger}
    (h : settings.BenchmarkLogging network { threshold := threshold } benchmark progress written) :
    benchmark = ⟨settings, (settings.benchmarkOn network).1.outcomes.map Outcome.unlogged⟩ ∧
      progress = (settings.benchmarkOn network).2 ∧
      WrittenUnder threshold settings.clients (settings.benchmarkOn network).1.log
        written.written := by
  obtain ⟨hsettings, hruns⟩ := h
  obtain ⟨houtcomes, hprogress, reported, hwritten, hentries, horder⟩ := hruns.spec
  obtain ⟨chosen, outcomes⟩ := benchmark
  change chosen = settings at hsettings
  subst chosen
  have hlogger : written = Logger.logEach { threshold := threshold }
      (settings.openingEntry :: reported) := hwritten
  rw [Logger.logEach_eq, LogEntry.isShown_eq] at hlogger
  refine ⟨congrArg (Benchmark.mk settings) houtcomes, hprogress, ?_, fun hone => ?_⟩
  · rw [hlogger]
    exact (hentries.cons settings.openingEntry).filter (·.level ≤ threshold)
  · rw [hlogger, horder hone]
    rfl

/-- Nothing but the log is told by the entries of the calls. -/
theorem Benchmark.unlogged_eq (benchmark : Benchmark) :
    let unlogged : Benchmark :=
      { benchmark with outcomes := benchmark.outcomes.map Outcome.unlogged }
    unlogged.summary = benchmark.summary ∧ unlogged.report = benchmark.report ∧
      unlogged.exitCode = benchmark.exitCode := by
  intro unlogged
  have hsummary : unlogged.summary = benchmark.summary := by
    simp only [unlogged, Benchmark.summary, List.filterMap_map]
    rfl
  have haborted : unlogged.aborted = benchmark.aborted := by
    simp only [unlogged, Benchmark.aborted, List.any_map]
    rfl
  refine ⟨hsummary, ?_, ?_⟩
  · simp only [Benchmark.report, haborted, hsummary, unlogged, List.flatMap_map]
    rfl
  · simp only [Benchmark.exitCode, haborted, hsummary]
    rfl

theorem Settings.exists_benchmarkLogging (settings : Settings) (network : Network)
    (logger : Logger) :
    ∃ benchmark progress written,
      settings.BenchmarkLogging network logger benchmark progress written := by
  obtain ⟨outcomes, progress, written, hruns⟩ := settings.exists_runsLogging settings.operations
    { network := network } (logger.log settings.openingEntry)
  exact ⟨⟨settings, outcomes⟩, progress, written, rfl, hruns⟩

/-- The log level only filters the log. Under each of two levels the benchmark can be run, and however its
threads take their turns, it has the same exit code, report and summary and makes the same calls on each
connection. The log that is written under the lower level is that under the higher one without the entries
that are less severe than the lower level, in the same order if there is one client, and else as a
multiset. The level stands in the settings as well, where nothing but the threshold is read off it; the
last part says that all is as in the benchmark that collects its log. -/
theorem Settings.log_level_only_filters (settings : Settings) (network : Network)
    {quiet loud : LogLevel} (hlevels : quiet ≤ loud) (name name' : Bytes)
    (raw raw' : Entries) :
    let first := { settings with logLevel := name, raw := raw }
    let second := { settings with logLevel := name', raw := raw' }
    (∃ benchmark progress written,
      first.BenchmarkLogging network { threshold := quiet } benchmark progress written) ∧
    (∃ benchmark progress written,
      second.BenchmarkLogging network { threshold := loud } benchmark progress written) ∧
    (∀ a p lower b q higher,
      first.BenchmarkLogging network { threshold := quiet } a p lower →
      second.BenchmarkLogging network { threshold := loud } b q higher →
        a.exitCode = b.exitCode ∧ a.report = b.report ∧ a.summary = b.summary ∧
        p.connections = q.connections ∧
        lower.written.Perm (higher.written.filter (·.level ≤ quiet)) ∧
        (settings.clients ≤ 1 → lower.written = higher.written.filter (·.level ≤ quiet))) ∧
    ∀ a p lower, first.BenchmarkLogging network { threshold := quiet } a p lower →
      let collected := settings.benchmarkOn network
      a.exitCode = collected.1.exitCode ∧ a.report = collected.1.report ∧
        a.summary = collected.1.summary ∧ p.connections = collected.2.connections ∧
        WrittenUnder quiet settings.clients collected.1.log lower.written := by
  intro first second
  have hfirst : first.benchmarkOn network =
      (⟨first, (settings.benchmarkOn network).1.outcomes⟩, (settings.benchmarkOn network).2) := rfl
  have hsecond : second.benchmarkOn network =
      (⟨second, (settings.benchmarkOn network).1.outcomes⟩, (settings.benchmarkOn network).2) := rfl
  refine ⟨first.exists_benchmarkLogging network _, second.exists_benchmarkLogging network _, ?_, ?_⟩
  · intro a p lower b q higher hquiet hloud
    obtain ⟨rfl, rfl, hlower⟩ := hquiet.spec
    obtain ⟨rfl, rfl, hhigher⟩ := hloud.spec
    refine ⟨rfl, rfl, rfl, rfl, ?_, fun hone => ?_⟩
    · have hperm := hhigher.entries.filter (·.level ≤ quiet)
      rw [LogEntry.filter_le hlevels] at hperm
      exact hlower.entries.trans hperm.symm
    · rw [hlower.order hone, hhigher.order hone, LogEntry.filter_le hlevels]
      rfl
  · intro a p lower hquiet collected
    obtain ⟨rfl, rfl, hlower⟩ := hquiet.spec
    obtain ⟨hsummary, hreport, hexit⟩ := collected.1.unlogged_eq
    exact ⟨hexit, hreport, hsummary, rfl, hlower⟩

/-- A connection that is reset in the first iteration, under the lowest level and under the highest. -/
theorem Settings.log_level_only_filters_reset :
    let settings : Settings := { iterations := 1 }
    let network : Network := { scripts := [{ peer := { reads := [.fail .connectionReset] } }] }
    ∃ a p lower b q higher,
      { settings with logLevel := utf8 "error" }.BenchmarkLogging network { threshold := .error }
        a p lower ∧
      { settings with logLevel := utf8 "debug" }.BenchmarkLogging network { threshold := .debug }
        b q higher ∧
      a.exitCode = b.exitCode ∧ a.report = b.report ∧ p.connections = q.connections ∧
      lower.written = higher.written.filter (·.level ≤ .error) ∧
      lower.written = [⟨.error, utf8
        "PING benchmark failed: PING iteration 0: recv() failed: Connection reset by peer"⟩,
        ⟨.error, utf8 "aborting run (on-error abort)"⟩] ∧
      higher.written.map LogEntry.level = [.info, .debug, .error, .error] := by
  intro settings network
  obtain ⟨⟨a, p, lower, hquiet⟩, ⟨b, q, higher, hloud⟩, hpair, hcollected⟩ :=
    settings.log_level_only_filters network (by decide : LogLevel.error ≤ .debug)
      (utf8 "error") (utf8 "debug") settings.raw settings.raw
  obtain ⟨hexit, hreport, -, hconnections, -, horder⟩ := hpair a p lower b q higher hquiet hloud
  obtain ⟨-, -, -, -, hlower⟩ := hcollected a p lower hquiet
  obtain ⟨-, -, hhigher⟩ := hloud.spec
  have hlog : (settings.benchmarkOn network).1.log = [⟨.info, utf8
      "benchmarking 127.0.0.1:6380 with 1 iterations per operation"⟩,
      ⟨.debug, utf8 "connected to 127.0.0.1:6380"⟩, ⟨.error, utf8
        "PING benchmark failed: PING iteration 0: recv() failed: Connection reset by peer"⟩,
      ⟨.error, utf8 "aborting run (on-error abort)"⟩] := by decide +kernel
  have hone : settings.clients ≤ 1 := by decide
  have hfew := hlower.order hone
  have hmany : higher.written = (settings.benchmarkOn network).1.log.filter _ := hhigher.order hone
  rw [hlog] at hfew hmany
  refine ⟨a, p, lower, b, q, higher, hquiet, hloud, hexit, hreport, hconnections, horder hone,
    hfew, ?_⟩
  rw [hmany]
  rfl

end RespLoad
