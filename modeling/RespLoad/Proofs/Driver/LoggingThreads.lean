import RespLoad.Proofs.Driver.CleanFailure
import RespLoad.Proofs.Driver.Logging

/-!
# Threads that share a logger

The concurrent driver as it writes its log. What a step reports goes to the one logger at once, so the
entries of the clients come in the order in which the threads take their turns. Whatever that order is,
the logger has been given the entries of the clients one after the other, up to a permutation. The entries
of one step are given together.
-/
namespace RespLoad

namespace Thread

/-- What a client reports in its next step: that it has a connection, or a warning of the reply that it
reads. -/
def reports (job : Job) (thread : Thread) : List LogEntry :=
  match thread.stage with
  | .tuning => job.target.connectedLog job.script.faults.noDelay
  | .talking (.iteration index started) [] =>
    match thread.peer.readOnce.1 with
    | .data reply =>
      let exchange : Exchange := ⟨index, started, thread.clock.read.1, reply⟩
      exchange.firstWarning job.operation (Exchange.tally thread.exchanges)
    | .fail _ => []
  | _ => []

/-- Before its socket is connected a client has reported nothing and exchanged nothing. -/
def SilentUntilConnected (thread : Thread) : Prop :=
  match thread.stage with
  | .resolving | .preparing _ | .tuning => thread.log = [] ∧ thread.exchanges = []
  | _ => True

/-- The client has reported what it had to, and so much more than before. -/
structure Reported (operation : Operation) (thread later : Thread) (entries : List LogEntry) :
    Prop where
  log : (later.result operation).log = (thread.result operation).log ++ entries
  silent : later.SilentUntilConnected

/-- Nothing is to be reported where neither the log nor the exchanges change. -/
theorem Reported.nothing {operation : Operation} {thread later : Thread} {entries : List LogEntry}
    (hnone : entries = []) (hlog : later.log = thread.log)
    (hexchanges : later.exchanges = thread.exchanges) (hsilent : later.SilentUntilConnected) :
    Reported operation thread later entries := by
  refine ⟨?_, hsilent⟩
  simp only [result, hnone, hlog, hexchanges, List.append_nil]

theorem reported_stepSend (job : Job) {thread : Thread} {purpose : Purpose} {unsent : Bytes}
    (hs : thread.stage = .talking purpose unsent) :
    Reported job.operation thread (thread.stepSend job purpose unsent) [] := by
  unfold stepSend
  dsimp only
  split
  · exact .nothing rfl rfl rfl trivial
  · split
    · exact .nothing rfl rfl rfl (by simp only [SilentUntilConnected, called, hs])
    · refine .nothing rfl rfl rfl ?_
      cases purpose <;> exact trivial

theorem reported_stepRead (job : Job) {thread : Thread} {purpose : Purpose}
    (hs : thread.stage = .talking purpose []) :
    Reported job.operation thread (thread.stepRead job purpose) (thread.reports job) := by
  obtain ⟨⟨outcome, peer⟩, hone⟩ : ∃ pair, thread.peer.readOnce = pair := ⟨_, rfl⟩
  unfold stepRead
  simp only [hone]
  cases outcome with
  | data reply =>
    cases purpose with
    | greeting =>
      have hnone : thread.reports job = [] := by simp only [reports, hs]
      simp only [answered]
      split
      · exact .nothing hnone rfl rfl trivial
      · exact .nothing hnone rfl rfl trivial
    | iteration index started =>
      refine ⟨?_, trivial⟩
      simp only [reports, hs, hone, answered, called, result, Exchange.warnings_append_singleton,
        List.append_assoc]
  | fail errno =>
    have hnone : thread.reports job = [] := by
      cases purpose <;> simp only [reports, hs, hone]
    dsimp only
    split
    · exact .nothing hnone rfl rfl (by simp only [SilentUntilConnected, called, hs])
    · refine .nothing hnone rfl rfl ?_
      cases purpose <;> exact trivial

/-- A step away from the gate reports what it is to report. -/
theorem reported_step (job : Job) {thread : Thread} (h : thread.SilentUntilConnected) :
    Reported job.operation thread (thread.step job) (thread.reports job) := by
  unfold step
  cases hs : thread.stage with
  | resolving =>
    simp only [SilentUntilConnected, hs] at h
    have hnone : thread.reports job = [] := by simp only [reports, hs]
    dsimp only
    split
    · exact .nothing hnone rfl rfl trivial
    · exact .nothing hnone rfl rfl h
  | preparing calls =>
    simp only [SilentUntilConnected, hs] at h
    have hnone : thread.reports job = [] := by simp only [reports, hs]
    cases calls with
    | nil => exact .nothing hnone rfl rfl h
    | cons call more =>
      dsimp only
      split
      · exact .nothing hnone rfl rfl h
      · split
        · exact .nothing hnone rfl rfl trivial
        · exact .nothing hnone rfl rfl trivial
  | tuning =>
    simp only [SilentUntilConnected, hs] at h
    obtain ⟨hlog, hexchanges⟩ := h
    have hreports : thread.reports job = job.target.connectedLog job.script.faults.noDelay := by
      simp only [reports, hs]
    have hafter : ∀ later : Thread, later.log = thread.reports job → later.exchanges = [] →
        later.SilentUntilConnected → Reported job.operation thread later (thread.reports job) := by
      intro later hl he hsilent
      refine ⟨?_, hsilent⟩
      simp only [result, hl, he, hlog, hexchanges]
      exact List.append_nil _
    dsimp only
    split
    · exact hafter _ hreports.symm hexchanges trivial
    · exact hafter _ hreports.symm hexchanges trivial
  | talking purpose unsent =>
    cases unsent with
    | nil => exact reported_stepRead job hs
    | cons b rest =>
      have hnone : thread.reports job = [] := by
        cases purpose <;> simp only [reports, hs]
      rw [hnone]
      exact reported_stepSend job hs
  | looping index =>
    have hnone : thread.reports job = [] := by simp only [reports, hs]
    dsimp only
    split
    · exact .nothing hnone rfl rfl trivial
    · exact .nothing hnone rfl rfl trivial
  | dropping cause | leaving failure =>
    have hnone : thread.reports job = [] := by simp only [reports, hs]
    exact .nothing hnone rfl rfl trivial
  | arriving failure | waiting failure | ended failure =>
    have hnone : thread.reports job = [] := by simp only [reports, hs]
    exact .nothing hnone rfl rfl h

end Thread

/-- What is put behind the image of one element goes behind all, up to a permutation. -/
theorem perm_flatMap_set {α β : Type} {items : List α} {index : Nat} {old new : α} {f : α → List β}
    {more : List β} (h : items[index]? = some old) (hf : f new = f old ++ more) :
    ((items.set index new).flatMap f).Perm (items.flatMap f ++ more) := by
  induction items generalizing index with
  | nil => cases h
  | cons first rest ih =>
    cases index with
    | zero =>
      cases h
      rw [List.set_cons_zero, List.flatMap_cons, List.flatMap_cons, hf, List.append_assoc,
        List.append_assoc]
      exact List.perm_append_comm.append_left _
    | succ index =>
      rw [List.set_cons_succ, List.flatMap_cons, List.flatMap_cons, List.append_assoc]
      exact (ih h).append_left _

namespace StartGate

/-- What a thread reports in its next step. The main thread reports the merge, if no client failed. -/
def State.reports (setup : Setup) (actor : Actor) (state : State) : List LogEntry :=
  match actor with
  | .main =>
    match state.main with
    | .joining _ =>
      let runs := state.runs setup
      match Driver.firstFailure runs with
      | some _ => []
      | none => [Driver.mergedLog setup.operation (runs.flatMap ClientRun.exchanges).length
          runs.length]
    | _ => []
  | .client index =>
    match state.clients[index]?, setup.jobs[index]? with
    | some thread, some job => thread.reports job
    | _, _ => []

/-- The states that some interleaving reaches, each with the logger as it then is. -/
inductive ReachableLogging (setup : Setup) (clock : Clock) (logger : Logger) :
    State → Logger → Prop
  | start : ReachableLogging setup clock logger { clock := clock } logger
  | step {state after : State} {current : Logger} (actor : Actor)
      (reached : ReachableLogging setup clock logger state current)
      (stepped : next? setup actor state = some after) :
      ReachableLogging setup clock logger after (current.logEach (state.reports setup actor))

section Logging

variable {setup : Setup} {clock : Clock} {logger current : Logger} {state : State}

theorem ReachableLogging.reachable (h : ReachableLogging setup clock logger state current) :
    Reachable setup clock state := by
  induction h with
  | start => exact .start
  | step actor reached stepped ih => exact .step actor ih stepped

theorem exists_reachableLogging (h : Reachable setup clock state) (logger : Logger) :
    ∃ current, ReachableLogging setup clock logger state current := by
  induction h with
  | start => exact ⟨logger, .start⟩
  | step actor reached stepped ih =>
    obtain ⟨current, hcurrent⟩ := ih
    exact ⟨_, .step actor hcurrent stepped⟩

/-- All entries of the clients so far, or of the attempt that was returned. -/
def State.entries (setup : Setup) (state : State) : List LogEntry :=
  match state.main with
  | .returned attempt => attempt.log
  | .starting | .gathering | .cancelling | .joining _ | .abandoning =>
    (state.runs setup).flatMap ClientRun.log

/-- The reports so far are the entries of the state, in some order. -/
structure Tells (setup : Setup) (state : State) (reported : List LogEntry) : Prop where
  silent : ∀ thread ∈ state.clients, thread.SilentUntilConnected
  entries : reported.Perm (state.entries setup)

theorem log_merge (operation : Operation) (iterations : Nat) (elapsed : Int)
    (clients : List ClientRun) :
    (Driver.merge operation iterations elapsed clients).log = clients.flatMap ClientRun.log ++
      match Driver.firstFailure clients with
      | some _ => []
      | none => [Driver.mergedLog operation (clients.flatMap ClientRun.exchanges).length
          clients.length] := by
  cases hf : Driver.firstFailure clients <;> simp only [Driver.merge, hf, List.append_nil]

/-- While the main thread has not returned, each client has its own entries. -/
theorem entries_of_going (h : ∀ attempt, state.main ≠ .returned attempt) :
    state.entries setup =
      state.clients.flatMap fun thread => (thread.result setup.operation).log := by
  unfold State.entries
  cases hs : state.main with
  | returned attempt => exact absurd hs (h attempt)
  | _ => exact List.flatMap_map _ _ _

theorem tells_mainMove {after : State} {reported : List LogEntry} (h : Tells setup state reported)
    (hm : MainMove setup state after) :
    Tells setup after (reported ++ state.reports setup .main) := by
  obtain ⟨hsilent, hentries⟩ := h
  cases hm with
  | @start job hs hj hf =>
    have hgoing : ∀ attempt, state.main ≠ .returned attempt := by
      rw [hs]
      exact fun _ => nofun
    have hnone : ((Thread.start job).result setup.operation).log = [] := rfl
    have hreports : state.reports setup .main = [] := by simp only [State.reports, hs]
    rw [entries_of_going hgoing] at hentries
    rw [hreports, List.append_nil]
    refine ⟨List.forall_mem_append.mpr ⟨hsilent, List.forall_mem_singleton.mpr ⟨rfl, rfl⟩⟩, ?_⟩
    rw [entries_of_going (by exact hgoing), List.flatMap_append, List.flatMap_singleton, hnone,
      List.append_nil]
    exact hentries
  | refuse hs hj hf | gather hs hj | release hs hr | cancel hs =>
    simp only [State.entries, State.reports, hs, List.append_nil] at hentries ⊢
    exact ⟨hsilent, hentries⟩
  | join hs he =>
    -- The merge adds its own entry behind those of the clients, and reports it in this step.
    simp only [State.entries, hs] at hentries
    simp only [State.reports, hs]
    refine ⟨hsilent, ?_⟩
    simp only [State.entries, log_merge]
    exact hentries.append_right _
  | abandon hs he =>
    simp only [State.entries, hs] at hentries
    simp only [State.reports, hs, List.append_nil]
    exact ⟨hsilent, hentries⟩

theorem reported_clientMove {job : Job} {thread moved : Thread} {counted : Nat}
    (hm : ClientMove job state thread moved counted) (h : thread.SilentUntilConnected) :
    thread.Reported job.operation moved (thread.reports job) := by
  cases hm with
  | @arrive failure hs =>
    have hnone : thread.reports job = [] := by simp only [Thread.reports, hs]
    exact .nothing hnone rfl rfl trivial
  | @pass failure hs ho =>
    have hnone : thread.reports job = [] := by simp only [Thread.reports, hs]
    cases failure with
    | some cause => exact .nothing hnone rfl rfl trivial
    | none =>
      unfold Thread.released
      dsimp only
      split
      · exact .nothing hnone rfl rfl trivial
      · exact .nothing hnone rfl rfl trivial
  | work ha hw he => exact Thread.reported_step job h

theorem tells_clientMove {reported : List LogEntry} (hc : Coherent setup state)
    (h : Tells setup state reported) {job : Job} {index counted : Nat} {thread moved : Thread}
    (ht : state.clients[index]? = some thread) (hj : setup.jobs[index]? = some job)
    (hop : job.operation = setup.operation) (hm : ClientMove job state thread moved counted) :
    Tells setup { state with
        clients := state.clients.set index moved, ready := state.ready + counted }
      (reported ++ state.reports setup (.client index)) := by
  obtain ⟨hsilent, hentries⟩ := h
  have hreported := reported_clientMove hm (hsilent thread (List.mem_of_getElem? ht))
  have hgoing := not_returned_of_clientMove hc.stage ht hm
  have hreports : state.reports setup (.client index) = thread.reports job := by
    simp only [State.reports, ht, hj]
  rw [hop] at hreported
  rw [hreports]
  refine ⟨fun other ho => ?_, ?_⟩
  · rcases List.mem_or_eq_of_mem_set ho with hm | rfl
    · exact hsilent other hm
    · exact hreported.silent
  · rw [entries_of_going hgoing] at hentries
    rw [entries_of_going (by exact hgoing)]
    exact (hentries.append_right _).trans (perm_flatMap_set ht hreported.log).symm

/-- Whatever the order, the logger has been given what the clients told one after the other would be
given. -/
theorem tells_of_reachableLogging (hop : ∀ job ∈ setup.jobs, job.operation = setup.operation)
    (h : ReachableLogging setup clock logger state current) :
    ∃ reported, current = logger.logEach reported ∧ Tells setup state reported := by
  induction h with
  | start => exact ⟨[], rfl, List.forall_mem_nil _, .nil⟩
  | @step state after current actor reached stepped ih =>
    obtain ⟨reported, rfl, htells⟩ := ih
    refine ⟨reported ++ state.reports setup actor, (logger.logEach_append _ _).symm, ?_⟩
    cases actor with
    | main => exact tells_mainMove htells (mainMove_of_stepMain? stepped)
    | client index =>
      obtain ⟨thread, job, moved, counted, ht, hj, hm, rfl⟩ := clientMove_of_stepClient? stepped
      exact tells_clientMove (coherent_of_reachable reached.reachable) htells ht hj
        (hop job (List.mem_of_getElem? hj)) hm

/-- Some interleaving goes on until the main thread returns. -/
theorem exists_returned (h : Reachable setup clock state) :
    ∃ later attempt, Reachable setup clock later ∧ later.main = .returned attempt := by
  induction hleft : state.left setup using Nat.strong_induction_on generalizing state with
  | _ left ih =>
    by_cases hgoing : ∀ attempt, state.main ≠ .returned attempt
    · obtain ⟨actor, after, hnext⟩ := exists_step_of_reachable h hgoing
      have hless := left_of_next? h hnext
      exact ih _ (hleft ▸ hless) (.step actor h hnext) rfl
    · push Not at hgoing
      obtain ⟨attempt, hr⟩ := hgoing
      exact ⟨state, attempt, h, hr⟩

end Logging

/-- What a run that has returned leaves of the network: a script and a thread start have been used for
each client, and a start more if that one failed. -/
def State.leaves (state : State) (network : Network) : Network :=
  { network.dropScripts state.clients.length with
    clock := state.clock
    threadStarts :=
      network.threadStarts + (state.clients.length + if state.cancelled then 1 else 0) }

theorem leaves_of_returned {target : Target} {clients : Nat} {operation : Operation}
    {iterations : Nat} {network : Network} {state : State} {attempt : Attempt}
    (h : Reachable (.ofNetwork target clients operation iterations network) network.clock state)
    (hr : state.main = .returned attempt) :
    state.leaves network =
      (Driver.runConcurrent target clients operation iterations network).2 := by
  have hclock := clock_of_returned h hr
  rw [State.leaves, hclock]
  cases hf : network.failingAmong clients with
  | none =>
    obtain ⟨hgo, hruns⟩ := runs_of_returned h hf hr
    have hlength := congrArg List.length hruns
    rw [State.runs, List.length_map, Driver.length_clientRuns] at hlength
    rw [hlength, hgo, Driver.runConcurrent, hf]
    rfl
  | some k =>
    have hjobs : k < (Setup.ofNetwork target clients operation iterations network).jobs.length := by
      rw [length_jobs]
      exact Network.lt_of_failingAmong hf
    have hstage := (coherent_of_reachable h).stage
    simp only [AtStage, hr] at hstage
    rw [(returned_of_failing h hf hjobs hr).2.1, cancelled_of_failing h hf hjobs hstage.1,
      Driver.runConcurrent, hf]
    rfl

end StartGate

namespace Driver

/-- What a call of a driver can come to that writes its log: the sequential driver has one way to run, and
the concurrent driver any in which its threads can take their turns. -/
inductive CallsLogging (target : Target) (operation : Operation) (iterations : Nat)
    (network : Network) (logger : Logger) : Driver → LoggedCall → Prop
  | tooMany (driver : Driver) (hlimit : Operation.maxIterations < iterations) :
      CallsLogging target operation iterations network logger driver
        ⟨.error (.tooManyIterations iterations), [], network, logger⟩
  | sequential (hlimit : iterations ≤ Operation.maxIterations) :
      CallsLogging target operation iterations network logger .sequential
        (runSequentialLogging target operation iterations network logger)
  | concurrent {others : Nat} (hlimit : iterations ≤ Operation.maxIterations)
      {state : StartGate.State} {attempt : Attempt} {after : Logger}
      (reached : StartGate.ReachableLogging
        (.ofNetwork target (others + 1) operation iterations network) network.clock logger state after)
      (returned : state.main = .returned attempt) :
      CallsLogging target operation iterations network logger (.concurrent others)
        ⟨attempt.result, attempt.connections, state.leaves network, after⟩

theorem exists_callsLogging (driver : Driver) (target : Target) (operation : Operation)
    (iterations : Nat) (network : Network) (logger : Logger) :
    ∃ call, CallsLogging target operation iterations network logger driver call := by
  by_cases hlimit : Operation.maxIterations < iterations
  · exact ⟨_, .tooMany driver hlimit⟩
  · have hfew := Nat.not_lt.mp hlimit
    cases driver with
    | sequential => exact ⟨_, .sequential hfew⟩
    | concurrent others =>
      obtain ⟨state, attempt, hreached, hr⟩ := StartGate.exists_returned .start
      obtain ⟨after, hlogging⟩ := StartGate.exists_reachableLogging hreached logger
      exact ⟨_, .concurrent hfew hlogging hr⟩

/-- Every call comes to what the driver comes to, and the logger has been given the log of the attempt, in
its own order if there is one client only. -/
theorem CallsLogging.spec {driver : Driver} {target : Target} {operation : Operation}
    {iterations : Nat} {network : Network} {logger : Logger} {call : LoggedCall}
    (h : CallsLogging target operation iterations network logger driver call) :
    ∃ reported, call = ⟨(driver.run target operation iterations network).1.result,
        (driver.run target operation iterations network).1.connections,
        (driver.run target operation iterations network).2, logger.logEach reported⟩ ∧
      reported.Perm (driver.run target operation iterations network).1.log ∧
      (driver = .sequential →
        reported = (driver.run target operation iterations network).1.log) := by
  cases h with
  | tooMany _ hlimit =>
    simp only [Driver.run, if_pos hlimit]
    exact ⟨[], rfl, .nil, fun _ => rfl⟩
  | sequential hlimit =>
    simp only [Driver.run, if_neg (Nat.not_lt.mpr hlimit)]
    exact ⟨_, runSequentialLogging_eq target operation iterations network logger, .refl _,
      fun _ => rfl⟩
  | @concurrent others hlimit state attempt after reached returned =>
    obtain ⟨reported, rfl, htells⟩ :=
      StartGate.tells_of_reachableLogging StartGate.operation_of_mem_jobs reached
    have hentries := htells.entries
    simp only [StartGate.State.entries, returned] at hentries
    obtain rfl := StartGate.attempt_of_returned reached.reachable returned
    rw [StartGate.leaves_of_returned reached.reachable returned]
    simp only [Driver.run, if_neg (Nat.not_lt.mpr hlimit)]
    exact ⟨reported, rfl, hentries, fun h => by cases h⟩

end Driver

end RespLoad
