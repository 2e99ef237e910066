import Mathlib.Data.List.Induction
import RespLoad.Proofs.Driver.LoggingThreads

/-!
# Warnings of empty reads

A read that brings nothing says that the server has closed the connection. A client warns of the first such
read among those of its iterations and of no other, so a run writes as many of these warnings as there are
clients that had one, in whatever order its threads run and also if it fails. With one client that is one
warning at most; two clients can warn twice.
-/
namespace RespLoad

/-- The entry is a warning of this operation that the server has closed the connection. -/
def Operation.warnsOfClosing (operation : Operation) (entry : LogEntry) : Bool :=
  entry.level == .warn &&
    (operation.name ++ utf8 ": server closed the connection at iteration ").isPrefixOf entry.message

/-- A read of the iterations on a connection brought nothing. -/
def Target.sawClosing (target : Target) (events : List Event) : Bool :=
  (target.iterationReplies events).contains []

/-- A threshold shows all entries of a level or none. -/
theorem LogEntry.filter_filter_isShown {p : LogEntry → Bool} {level threshold : LogLevel}
    (h : ∀ entry : LogEntry, p entry = true → entry.level = level) (entries : List LogEntry) :
    (entries.filter (isShown threshold)).filter p =
      if level.rank ≤ threshold.rank then entries.filter p else [] := by
  rw [List.filter_filter]
  split
  · rename_i hle
    refine List.filter_congr fun entry _ => ?_
    rw [Bool.and_eq_left_iff_imp]
    exact fun hp => decide_eq_true (h entry hp ▸ hle)
  · rename_i hle
    rw [List.filter_eq_nil_iff]
    intro entry _ hp
    obtain ⟨hp, hshown⟩ := Bool.and_eq_true_iff.mp hp
    exact hle (h entry hp ▸ of_decide_eq_true hshown)

theorem LogEntry.countP_isShown {p : LogEntry → Bool} {level threshold : LogLevel}
    (h : ∀ entry : LogEntry, p entry = true → entry.level = level) (entries : List LogEntry) :
    (entries.filter (isShown threshold)).countP p =
      if level.rank ≤ threshold.rank then entries.countP p else 0 := by
  rw [List.countP_eq_length_filter, filter_filter_isShown h]
  split
  · exact List.countP_eq_length_filter.symm
  · rfl

theorem Operation.level_of_warnsOfClosing {operation : Operation} {entry : LogEntry}
    (h : operation.warnsOfClosing entry = true) : entry.level = .warn :=
  beq_iff_eq.mp (Bool.and_eq_true_iff.mp h).1

namespace Exchange

theorem countP_warning (operation : Operation) (exchange : Exchange) :
    (exchange.warning? operation).toList.countP operation.warnsOfClosing =
      if exchange.kind = .empty then 1 else 0 := by
  unfold warning?
  cases exchange.kind <;> cases operation <;> rfl

/-- Of all empty replies one is warned of. -/
theorem countP_warnings (operation : Operation) (exchanges : List Exchange) :
    (warnings operation exchanges).countP operation.warnsOfClosing =
      if ReplyKind.empty ∈ exchanges.map kind then 1 else 0 := by
  induction exchanges using List.reverseRecOn with
  | nil => rfl
  | append_singleton past exchange ih =>
    rw [warnings_append_singleton, firstWarning_tally, List.countP_append, ih, List.map_append,
      List.map_singleton]
    by_cases hk : exchange.kind = .empty
    · have hnow : ReplyKind.empty ∈ past.map kind ++ [exchange.kind] :=
        List.mem_append_right _ (List.mem_singleton.mpr hk.symm)
      rw [if_pos hnow, hk]
      by_cases hpast : ReplyKind.empty ∈ past.map kind
      · rw [if_pos hpast, if_pos hpast]
        rfl
      · rw [if_neg hpast, if_neg hpast, countP_warning, if_pos hk]
    · have hquiet : (if exchange.kind ∈ past.map kind then []
          else (exchange.warning? operation).toList).countP operation.warnsOfClosing = 0 := by
        split
        · rfl
        · rw [countP_warning, if_neg hk]
      have hsame : ReplyKind.empty ∈ past.map kind ++ [exchange.kind] ↔
          ReplyKind.empty ∈ past.map kind := by
        rw [List.mem_append, List.mem_singleton, or_iff_left (Ne.symm hk)]
      rw [hquiet, if_congr hsame rfl rfl, Nat.add_zero]

end Exchange

namespace Target

/-- Dialling logs nothing before its socket is connected. -/
theorem mem_connectedLog_of_mem_log {target : Target} {script : Script} {entry : LogEntry}
    (h : entry ∈ (target.dial script).log) : entry ∈ target.connectedLog script.faults.noDelay := by
  unfold dial at h
  split at h
  · cases h
  · split at h
    · cases h
    · split at h
      · exact h
      · exact h

theorem countP_log_dial (target : Target) (operation : Operation) (script : Script) :
    (target.dial script).log.countP operation.warnsOfClosing = 0 := by
  have hquiet : (target.connectedLog script.faults.noDelay).countP operation.warnsOfClosing = 0 := by
    unfold connectedLog
    cases script.faults.noDelay <;> cases operation <;> rfl
  rw [List.countP_eq_zero] at hquiet ⊢
  exact fun entry hm => hquiet entry (mem_connectedLog_of_mem_log hm)

/-- The greeting is answered once at most, also by a server that turns it away. -/
theorem length_repliesRead_greet (target : Target) (script : Script) :
    (repliesRead (target.greet script).2).length ≤ target.greeting.length := by
  unfold greet greeting
  split
  · exact Nat.le_refl 0
  · rw [authenticate_events, (roundTrip_roundTrip _ _).repliesRead]
    exact Option.length_toList_le

theorem iterationReplies_dial (target : Target) (script : Script) :
    target.iterationReplies (target.dial script).events = [] := by
  have hgreet := target.length_repliesRead_greet script
  have hdials := dials_dial target script
  generalize target.dial script = dialled at hdials
  refine List.drop_eq_nil_of_le ?_
  cases hdials with
  | unresolved cause => exact Nat.zero_le _
  | refused errno cause => exact Nat.zero_le _
  | unprepared hp cause =>
    rw [repliesRead_append, repliesRead_of_setup (isSetup_of_prepares hp)]
    exact Nat.zero_le _
  | rejected hp hg log =>
    rw [hg] at hgreet
    rwa [repliesRead_append, repliesRead_append, repliesRead_of_setup (isSetup_of_prepares hp),
      repliesRead_of_setup isSetup_close, List.nil_append, List.append_nil]
  | connected hp hg log =>
    rw [hg] at hgreet
    rwa [repliesRead_append, repliesRead_of_setup (isSetup_of_prepares hp), List.nil_append]

theorem iterationReplies_leave (target : Target) (script : Script) :
    target.iterationReplies (target.dial script).leave.events = [] := by
  unfold Dialled.leave
  split
  · exact target.iterationReplies_dial script
  · have hclose := target.iterationReplies_dial script
    rwa [iterationReplies, repliesRead_append, repliesRead_of_setup isSetup_close, List.append_nil]

end Target

/-- A client warns once if a read of its iterations brought nothing, and else not at all. -/
theorem Dialled.GoesOn.countP_log {target : Target} {script : Script} {operation : Operation}
    {client : ClientRun} (h : (target.dial script).GoesOn operation client) :
    client.log.countP operation.warnsOfClosing =
      if target.sawClosing client.events then 1 else 0 := by
  have hdial := target.countP_log_dial operation script
  cases h with
  | leaves =>
    rw [Target.sawClosing, target.iterationReplies_leave]
    have hlog : (target.dial script).leave.log = (target.dial script).log := by
      unfold Dialled.leave
      split <;> rfl
    rw [hlog, hdial]
    rfl
  | works hd slice clock =>
    rw [Target.sawClosing, iterationReplies_continue hd]
    simp only [continueWith, List.countP_append, hdial, Nat.zero_add, Exchange.countP_warnings]
    refine if_congr ?_ rfl rfl
    rw [List.contains_iff_mem, List.mem_map, List.mem_map]
    refine exists_congr fun exchange => and_congr_right fun _ => ?_
    exact ReplyKind.ofBytes_eq_empty_iff

namespace Driver

section Run

variable (driver : Driver) (target : Target) (operation : Operation) (iterations : Nat)
  (network : Network)

/-- The log of an attempt is that of its clients one after the other. What a merge adds is no warning. -/
theorem log_run :
    ∃ closing, (driver.run target operation iterations network).1.log =
        (driver.workers target operation iterations network).flatMap ClientRun.log ++ closing ∧
      ∀ entry ∈ closing, entry.level = .debug := by
  by_cases hlimit : Operation.maxIterations < iterations
  · simp only [Driver.run, workers, if_pos hlimit]
    exact ⟨[], rfl, List.forall_mem_nil _⟩
  simp only [Driver.run, workers, if_neg hlimit]
  cases driver with
  | sequential =>
    -- Dialling does not read the clock, in which the two scripts differ.
    have hsame := network.sameServer_ownScript.dial target
    refine ⟨[], ?_, List.forall_mem_nil _⟩
    simp only [List.flatMap_singleton, List.append_nil]
    cases hd : (target.dial network.nextScript).result with
    | error cause =>
      rw [runClient_of_error (hsame.symm ▸ hd), hsame]
      simp only [runSequential, hd]
    | ok peer =>
      rw [runClient_of_ok (hsame.symm ▸ hd), hsame]
      simp only [runSequential, hd]
      split <;> rfl
  | concurrent others =>
    cases hf : network.failingAmong (others + 1) with
    | some index =>
      simp only [runConcurrent, hf]
      exact ⟨[], (List.append_nil _).symm, List.forall_mem_nil _⟩
    | none =>
      simp only [runConcurrent, hf, StartGate.log_merge]
      refine ⟨_, rfl, ?_⟩
      split
      · exact List.forall_mem_nil _
      · exact List.forall_mem_singleton.mpr rfl

theorem countP_log_run :
    (driver.run target operation iterations network).1.log.countP operation.warnsOfClosing =
      (driver.run target operation iterations network).1.connections.countP target.sawClosing := by
  obtain ⟨closing, hlog, hdebug⟩ := log_run driver target operation iterations network
  have hclosing : closing.countP operation.warnsOfClosing = 0 := by
    rw [List.countP_eq_zero]
    intro entry hm hw
    have hlevel := Operation.level_of_warnsOfClosing hw
    rw [hdebug entry hm] at hlevel
    cases hlevel
  have hclients := forall₂_workers target operation iterations network driver
  rw [hlog, List.countP_append, hclosing, Nat.add_zero,
    (madeOf_run target operation iterations network driver).connections]
  generalize driver.workers target operation iterations network = clients at hclients
  generalize (network.nextScripts driver.clients).take clients.length = scripts at hclients
  induction hclients with
  | nil => rfl
  | @cons script client scripts clients hclient _ ih =>
    rw [List.flatMap_cons, List.countP_append, ih, List.map_cons, List.countP_cons,
      hclient.countP_log, Nat.add_comm]

theorem length_connections_le :
    (driver.run target operation iterations network).1.connections.length ≤ driver.clients := by
  have hclients := (forall₂_workers target operation iterations network driver).length_eq
  rw [List.length_take, Network.length_nextScripts] at hclients
  rw [(madeOf_run target operation iterations network driver).connections, List.length_map]
  omega

end Run

/-- One warning at most that the server has closed the connection, and one if warnings are shown and a read
of the iterations brought nothing, on whichever connection it was. -/
structure WarnsOnce (target : Target) (operation : Operation) (threshold : LogLevel)
    (connections : List (List Event)) (written : List LogEntry) : Prop where
  atMost : written.countP operation.warnsOfClosing ≤ 1
  once : LogLevel.warn.rank ≤ threshold.rank →
    (∃ events ∈ connections, [] ∈ target.iterationReplies events) →
      written.countP operation.warnsOfClosing = 1

/-- Entries that warn once for each connection with an empty read warn once if there is one such connection
at most. -/
theorem warnsOnce_iff {target : Target} {operation : Operation} {threshold : LogLevel}
    {connections : List (List Event)} {written : List LogEntry}
    (h : written.countP operation.warnsOfClosing =
      if LogLevel.warn.rank ≤ threshold.rank then connections.countP target.sawClosing else 0) :
    WarnsOnce target operation threshold connections written ↔
      (LogLevel.warn.rank ≤ threshold.rank → connections.countP target.sawClosing ≤ 1) := by
  constructor
  · intro honce hshown
    rw [if_pos hshown] at h
    exact h ▸ honce.atMost
  · intro hfew
    constructor
    · rw [h]
      split
      · rename_i hshown
        exact hfew hshown
      · exact Nat.zero_le 1
    · rintro hshown ⟨events, hm, hempty⟩
      have hpos : 0 < connections.countP target.sawClosing :=
        List.countP_pos_iff.mpr ⟨events, hm, List.contains_iff_mem.mpr hempty⟩
      rw [h, if_pos hshown]
      exact Nat.le_antisymm (hfew hshown) hpos

/-- What a call has written, with one warning for each connection on which a read of the iterations brought
nothing. -/
theorem CallsLogging.warnings {driver : Driver} {target : Target} {operation : Operation}
    {iterations : Nat} {network : Network} {logger : Logger} {call : LoggedCall}
    (h : CallsLogging target operation iterations network logger driver call) :
    ∃ written, call.logger = { logger with written := logger.written ++ written } ∧
      call.connections.length ≤ driver.clients ∧
      written.countP operation.warnsOfClosing =
        if LogLevel.warn.rank ≤ logger.threshold.rank then
          call.connections.countP target.sawClosing else 0 := by
  obtain ⟨reported, rfl, hentries, -⟩ := h.spec
  refine ⟨_, logger.logEach_eq reported, ?_, ?_⟩
  · exact length_connections_le driver target operation iterations network
  · rw [LogEntry.countP_isShown fun _ => Operation.level_of_warnsOfClosing, hentries.countP_eq,
      countP_log_run]

/-- A run writes one warning for each connection on which a read of the iterations brought nothing, and none
if warnings are not shown, however its threads take their turns and whether or not it fails. So it warns
once, however many reads were empty, exactly if warnings are not shown or one connection at most had such
reads. With one client there is no other. -/
theorem closing_warned_per_connection (driver : Driver) (target : Target) (operation : Operation)
    (iterations : Nat) (network : Network) (logger : Logger) :
    (∃ call, CallsLogging target operation iterations network logger driver call) ∧
    ∀ call, CallsLogging target operation iterations network logger driver call →
      ∃ written, call.logger = { logger with written := logger.written ++ written } ∧
        written.countP operation.warnsOfClosing =
          (if LogLevel.warn.rank ≤ logger.threshold.rank then
            call.connections.countP target.sawClosing else 0) ∧
        (WarnsOnce target operation logger.threshold call.connections written ↔
          (LogLevel.warn.rank ≤ logger.threshold.rank →
            call.connections.countP target.sawClosing ≤ 1)) ∧
        (driver.clients = 1 →
          WarnsOnce target operation logger.threshold call.connections written) := by
  refine ⟨exists_callsLogging driver target operation iterations network logger, fun call h => ?_⟩
  obtain ⟨written, hlogger, hlength, hcount⟩ := h.warnings
  refine ⟨written, hlogger, hcount, warnsOnce_iff hcount, fun hone => ?_⟩
  refine (warnsOnce_iff hcount).mpr fun _ => ?_
  exact List.countP_le_length.trans (hone ▸ hlength)

/-- Three clients with a password. The first reads nothing in both of its iterations, the second is answered
with an error and then reset, and the third reads nothing in answer to its greeting, which is no read of an
iteration. The run fails and has warned once. -/
theorem closing_warned_per_connection_three_clients :
    let target : Target := { password := utf8 "pw" }
    let accepted := ReadOutcome.data (utf8 "+OK\r\n")
    let network : Network := { scripts := [{ peer := { reads := [accepted] } },
      { peer := { reads := [accepted, .data (utf8 "-ERR"), .fail .connectionReset] } }, {}] }
    let logger : Logger := { threshold := .info, written := [⟨.info, utf8 "before"⟩] }
    ∃ call written, CallsLogging target .get 6 network logger (.concurrent 2) call ∧
      call.result.toBool = false ∧
      call.logger = { logger with written := logger.written ++ written } ∧
      written.countP Operation.get.warnsOfClosing = 1 ∧
      WarnsOnce target .get .info call.connections written := by
  intro target accepted network logger
  obtain ⟨⟨call, hcall⟩, hwarned⟩ :=
    closing_warned_per_connection (.concurrent 2) target .get 6 network logger
  obtain ⟨written, hlogger, hcount, honce, -⟩ := hwarned call hcall
  have hrun : ((concurrent 2).run target .get 6 network).1.connections.countP target.sawClosing = 1 ∧
      ((concurrent 2).run target .get 6 network).1.result.toBool = false := by decide +kernel
  obtain ⟨reported, hspec, -⟩ := hcall.spec
  have hsaw : call.connections.countP target.sawClosing = 1 := by
    rw [hspec]
    exact hrun.1
  rw [hsaw] at hcount honce
  refine ⟨call, written, hcall, ?_, hlogger, hcount, honce.mpr fun _ => Nat.le_refl 1⟩
  rw [hspec]
  exact hrun.2

/-- Two clients that read nothing in their one iteration each warn of it, in every order of their threads. -/
theorem two_clients_warn_twice :
    let network : Network := { scripts := [{}, {}] }
    let logger : Logger := { threshold := .warn }
    let warning := fun iteration => LogEntry.mk .warn (utf8 "PING: server closed the connection at " ++
      utf8 iteration ++ utf8 "; latencies after this point are not round trips")
    (∃ call, CallsLogging {} .ping 2 network logger (.concurrent 1) call) ∧
    ∀ call, CallsLogging {} .ping 2 network logger (.concurrent 1) call →
      call.logger.written.Perm [warning "iteration 0", warning "iteration 1"] ∧
        ¬WarnsOnce {} .ping .warn call.connections call.logger.written := by
  intro network logger warning
  refine ⟨exists_callsLogging _ _ _ _ _ _, fun call hcall => ?_⟩
  obtain ⟨reported, rfl, hentries, -⟩ := hcall.spec
  have hlog : ((concurrent 1).run {} .ping 2 network).1.log.filter (LogEntry.isShown .warn) =
      [warning "iteration 0", warning "iteration 1"] := by decide +kernel
  have hwritten : (logger.logEach reported).written.Perm
      [warning "iteration 0", warning "iteration 1"] := by
    rw [logger.logEach_eq, ← hlog]
    exact hentries.filter _
  refine ⟨hwritten, fun honce => ?_⟩
  have hmost := honce.atMost
  rw [hwritten.countP_eq] at hmost
  exact absurd hmost (by decide +kernel)

end Driver

end RespLoad
