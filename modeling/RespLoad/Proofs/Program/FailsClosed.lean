import RespLoad.Program
import RespLoad.Proofs.Benchmark.Attempts
import RespLoad.Proofs.Settings.Valid

/-!
# The program fails closed

Unless the command line and all settings are accepted, and help was not asked for, the program opens no
connection and runs nothing. If it goes ahead, the checks that are made later have nothing left to refuse,
and each operation that is attempted opens one connection for each client. Which words, files and values
are accepted is not spoken of.
-/
namespace RespLoad

/-- Nothing is left for the checks of a run to refuse or to correct. -/
structure Settings.Checked (settings : Settings) : Prop where
  iterations : ∀ (driver : Driver) (target : Target) (operation : Operation) (network : Network)
    (count : Nat), (driver.run target operation settings.iterations network).1.result ≠
      .error (.tooManyIterations count)
  logLevel : ∃ level, LogLevel.ofName? settings.logLevel = some level
  clients : ((Driver.choose settings.clients).clients : Int) = settings.clients

theorem Driver.clients_choose {clients : Int} (h : 1 ≤ clients) :
    ((choose clients).clients : Int) = clients := by
  unfold choose
  split
  · simp only [Driver.clients]
    omega
  · simp only [withClients, Driver.clients]
    omega

theorem Settings.Valid.checked {settings : Settings} (h : settings.Valid) : settings.Checked where
  iterations := fun driver target operation network =>
    driver.run_ne_tooManyIterations target operation h.iterations.2 network
  logLevel := Option.isSome_iff_exists.mp h.logLevel
  clients := Driver.clients_choose h.clients.1

/-- What the driver came to for the first operations of the settings, so many as were attempted. -/
def Settings.attempts (settings : Settings) (network : Network) (attempted : Nat) : List Attempt :=
  ((Driver.choose settings.clients).runEach settings.target
    ((settings.operations.take attempted).map fun operation => (operation, settings.iterations))
    network).1

/-- The connections of a benchmark are those of its attempts, one attempt for each operation that was
attempted. When all threads could be started, each attempt has as many as there are clients, each opened
once. -/
structure Settings.Opens (settings : Settings) (network : Network) (benchmark : Benchmark)
    (connections : List (List Event)) : Prop where
  answers : benchmark.outcomes.map Outcome.toAnswer =
    (settings.attempts network benchmark.outcomes.length).map Attempt.answer
  made : connections =
    (settings.attempts network benchmark.outcomes.length).flatMap Attempt.connections
  opened : (∀ attempt ∈ settings.attempts network benchmark.outcomes.length,
      Driver.AllStarted attempt) →
    (∀ attempt ∈ settings.attempts network benchmark.outcomes.length,
      (attempt.connections.length : Int) = settings.clients) ∧
    List.Forall₂ settings.target.OpenedOnce
      (network.nextScripts (benchmark.outcomes.length * settings.clients.toNat)) connections

theorem Settings.benchmarkOn_attempts (settings : Settings) (network : Network) :
    let ran := settings.benchmarkOn network
    let attempts := settings.attempts network ran.1.outcomes.length
    ran.1.outcomes.map Outcome.toAnswer = attempts.map Attempt.answer ∧
      ran.2.connections = attempts.flatMap Attempt.connections := by
  obtain ⟨hanswers, hmade, _⟩ := (Driver.choose settings.clients).runEach_runner settings.target
    settings.onFailure settings.iterations settings.operations { network := network }
  exact ⟨hanswers, hmade⟩

theorem Settings.Valid.openedOnce {settings : Settings} (h : settings.Valid) {network : Network}
    {attempted : Nat}
    (hstart : ∀ attempt ∈ settings.attempts network attempted, Driver.AllStarted attempt) :
    (∀ attempt ∈ settings.attempts network attempted,
      (attempt.connections.length : Int) = settings.clients) ∧
    List.Forall₂ settings.target.OpenedOnce
      (network.nextScripts
        ((settings.attempts network attempted).length * settings.clients.toNat))
      ((settings.attempts network attempted).flatMap Attempt.connections) := by
  have hclients : ((Driver.choose settings.clients).clients : Int) = settings.clients :=
    Driver.clients_choose h.clients.1
  have hnat : (Driver.choose settings.clients).clients = settings.clients.toNat := by omega
  obtain ⟨hcounts, hopened⟩ := Driver.openedOnce_runEach _ settings.target network
    (List.forall_mem_map.mpr fun _ _ => h.iterations.2) hstart
  constructor
  · intro attempt ha
    rw [hcounts attempt ha, hclients]
  · rw [attempts, Driver.length_runEach, ← hnat]
    exact hopened

theorem Settings.Valid.opens {settings : Settings} (h : settings.Valid) (network : Network) :
    settings.Opens network (settings.benchmarkOn network).1
      (settings.benchmarkOn network).2.connections := by
  obtain ⟨hanswers, hmade⟩ := settings.benchmarkOn_attempts network
  refine ⟨hanswers, hmade, fun hstart => ?_⟩
  have hlength := congrArg List.length hanswers
  rw [List.length_map, List.length_map] at hlength
  obtain ⟨hcounts, hopened⟩ := h.openedOnce hstart
  rw [← hlength, ← hmade] at hopened
  exact ⟨hcounts, hopened⟩

/-- The program went ahead with settings that need no further check: it ran the benchmark on the
network and ended as that did. -/
structure Execution.WentAhead (execution : Execution) (settings : Settings) (network : Network) :
    Prop where
  checked : settings.Checked
  ran : execution = .ran (settings.benchmarkOn network).1 (settings.benchmarkOn network).2
  threshold : LogLevel.ofName? settings.logLevel = some execution.threshold
  exitCode : execution.exitCode = (settings.benchmarkOn network).1.exitCode ∧
    execution.exitCode.toNat ≤ 2
  opens : settings.Opens network (settings.benchmarkOn network).1 execution.connections

theorem ExitCode.toNat_le (code : ExitCode) : code.toNat ≤ 2 := by
  cases code <;> decide

theorem Settings.Valid.wentAhead {settings : Settings} (h : settings.Valid) (network : Network) :
    (Execution.ran (settings.benchmarkOn network).1 (settings.benchmarkOn network).2).WentAhead
      settings network where
  checked := h.checked
  ran := rfl
  threshold := by
    obtain ⟨level, hl⟩ := h.checked.logLevel
    show LogLevel.ofName? settings.logLevel = some ((LogLevel.ofName? settings.logLevel).getD .info)
    rw [hl]
    rfl
  exitCode := ⟨rfl, ExitCode.toNat_le _⟩
  opens := h.opens network

section Execute

variable {argv : List Bytes} {files : Files} {network : Network}

theorem execute_of_misuse {cause : CommandLineError} (h : CommandLine.parse argv = .error cause) :
    execute argv files network = .misused cause := by
  simp only [execute, h]

theorem execute_of_help {commandLine : CommandLine}
    (h : CommandLine.parse argv = .ok commandLine) (hh : commandLine.showHelp = true) :
    execute argv files network = .helped := by
  simp only [execute, h, hh, if_true]

theorem execute_of_refusal {commandLine : CommandLine} {settings : Settings} {cause : ResolveError}
    (h : CommandLine.parse argv = .ok commandLine) (hh : commandLine.showHelp = false)
    (hr : ({} : Settings).resolve files commandLine = (settings, some cause)) :
    execute argv files network = .refused cause := by
  simp only [execute, h, hh, hr, Bool.false_eq_true, if_false]

theorem execute_of_settled {commandLine : CommandLine} {settings : Settings}
    (h : CommandLine.parse argv = .ok commandLine) (hh : commandLine.showHelp = false)
    (hr : ({} : Settings).resolve files commandLine = (settings, none)) :
    execute argv files network =
      .ran (settings.benchmarkOn network).1 (settings.benchmarkOn network).2 := by
  simp only [execute, h, hh, hr, Bool.false_eq_true, if_false]

end Execute

/-- The program opens a connection only if the command line is accepted without a request for help and the
settings are accepted. What is refused ends it with 1, and a request for help with 0 whatever else the
words and the files say. Otherwise it goes ahead. -/
theorem execute_fails_closed (argv : List Bytes) (files : Files) (network : Network) :
    let execution := execute argv files network
    (execution.connections ≠ [] → ∃ commandLine settings,
      CommandLine.parse argv = .ok commandLine ∧ commandLine.showHelp = false ∧
        ({} : Settings).resolve files commandLine = (settings, none)) ∧
    (∀ cause, CommandLine.parse argv = .error cause → execution.exitCode.toNat = 1) ∧
    ∀ commandLine, CommandLine.parse argv = .ok commandLine →
      (commandLine.showHelp = true → execution.exitCode.toNat = 0) ∧
      (commandLine.showHelp = false → ∀ settings,
        (∀ cause, ({} : Settings).resolve files commandLine = (settings, some cause) →
          execution.exitCode.toNat = 1) ∧
        (({} : Settings).resolve files commandLine = (settings, none) →
          execution.WentAhead settings network)) := by
  intro execution
  refine ⟨?_, ?_, ?_⟩
  · intro hopen
    cases hp : CommandLine.parse argv with
    | error cause =>
      simp only [execution, execute_of_misuse hp] at hopen
      exact absurd rfl hopen
    | ok commandLine =>
      cases hh : commandLine.showHelp with
      | true =>
        simp only [execution, execute_of_help hp hh] at hopen
        exact absurd rfl hopen
      | false =>
        obtain ⟨⟨settings, refusal⟩, hr⟩ :
          ∃ settled, ({} : Settings).resolve files commandLine = settled := ⟨_, rfl⟩
        cases refusal with
        | some cause =>
          simp only [execution, execute_of_refusal hp hh hr] at hopen
          exact absurd rfl hopen
        | none => exact ⟨commandLine, settings, rfl, hh, hr⟩
  · intro cause hp
    simp only [execution, execute_of_misuse hp]
    rfl
  · intro commandLine hp
    refine ⟨fun hh => ?_, fun hh settings => ⟨fun cause hr => ?_, fun hr => ?_⟩⟩
    · simp only [execution, execute_of_help hp hh]
      rfl
    · simp only [execution, execute_of_refusal hp hh hr]
      rfl
    · have hvalid : settings.Valid := by
        have hv := Settings.valid_default.resolve files commandLine
        rwa [hr] at hv
      simp only [execution, execute_of_settled hp hh hr]
      exact hvalid.wentAhead network

/-- A word that is no option, a port that is refused, the same behind a request for help, and two clients
for two operations, who get a connection each time. -/
theorem execute_fails_closed_four_ways :
    let files : Files := fun _ => none
    let answering : Script :=
      { peer := { lasting := ⟨.data (utf8 "+PONG\r\n"), by decide⟩ } }
    let network : Network := { scripts := List.replicate 4 answering }
    let called := fun words : List String => execute (words.map utf8) files network
    let execution := called ["resp-bench", "--operations", "ping,get", "--iterations", "3",
      "--clients", "2"]
    (called ["resp-bench", "start"]).exitCode.toNat = 1 ∧
    (called ["resp-bench", "--port", "0"]).exitCode.toNat = 1 ∧
    (called ["resp-bench", "--port", "0", "--help"]).exitCode.toNat = 0 ∧
    ∃ settings, execution.WentAhead settings network ∧ settings.clients = 2 ∧
      execution.connections.length = 4 := by
  intro files answering network called execution
  refine ⟨?_, ?_, ?_, ?_⟩
  · obtain ⟨_, hmisused, _⟩ :=
      execute_fails_closed (["resp-bench", "start"].map utf8) files network
    exact hmisused (.unexpectedArgument (utf8 "start")) (by decide +kernel)
  · obtain ⟨_, _, hparsed⟩ :=
      execute_fails_closed (["resp-bench", "--port", "0"].map utf8) files network
    exact ((hparsed ⟨[], [⟨utf8 "port", utf8 "0"⟩], false⟩ (by decide +kernel)).2 rfl {}).1
      (.flag ⟨utf8 "port", .badPort (utf8 "0")⟩) (by decide +kernel)
  · obtain ⟨_, _, hparsed⟩ :=
      execute_fails_closed (["resp-bench", "--port", "0", "--help"].map utf8) files network
    exact (hparsed ⟨[], [⟨utf8 "port", utf8 "0"⟩], true⟩ (by decide +kernel)).1 rfl
  · obtain ⟨_, _, hparsed⟩ := execute_fails_closed (["resp-bench", "--operations", "ping,get",
      "--iterations", "3", "--clients", "2"].map utf8) files network
    let commandLine : CommandLine := ⟨[], [⟨utf8 "operations", utf8 "ping,get"⟩,
      ⟨utf8 "iterations", utf8 "3"⟩, ⟨utf8 "clients", utf8 "2"⟩], false⟩
    let settings := (({} : Settings).resolve files commandLine).1
    have hr : ({} : Settings).resolve files commandLine = (settings, none) := by decide +kernel
    have hahead := ((hparsed commandLine (by decide +kernel)).2 rfl settings).2 hr
    exact ⟨settings, hahead, by decide +kernel, by decide +kernel⟩

end RespLoad
