import RespLoad.Proofs.Driver.EmptyReads
import RespLoad.Proofs.Text.Cut

/-!
# Replies as the operator sees them

The program shows text of a server in two places. The first error reply to an iteration on each connection
is quoted in a warning, and the reply that turns the credentials away is part of the error of the run. Both
are decoded, and then cut. The rejection loses only line ends and stays well-formed. The quote is cut behind
so many bytes, whatever they are: it is well-formed exactly if a character begins behind the cut, and else
ends in the start of one.
-/
namespace RespLoad

/-- The piece of a reply that a warning quotes. -/
def Exchange.quoted (reply : Bytes) : Bytes := (Utf8.decode reply).take quoteLimit

namespace Operation

/-- The warning with a quote of an error reply. -/
def errorWarning (operation : Operation) (quote : Bytes) : LogEntry :=
  ⟨.warn, operation.name ++ utf8 ": error reply " ++ quote⟩

/-- The entry is a warning of this operation that quotes an error reply. -/
def warnsOfError (operation : Operation) (entry : LogEntry) : Bool :=
  entry.level == .warn && (operation.name ++ utf8 ": error reply ").isPrefixOf entry.message

theorem warnsOfError_errorWarning (operation : Operation) (quote : Bytes) :
    operation.warnsOfError (operation.errorWarning quote) = true := by
  cases operation <;> rfl

theorem level_of_warnsOfError {operation : Operation} {entry : LogEntry}
    (h : operation.warnsOfError entry = true) : entry.level = .warn :=
  beq_iff_eq.mp (Bool.and_eq_true_iff.mp h).1

theorem errorWarning_inj {operation : Operation} {quote other : Bytes} :
    operation.errorWarning quote = operation.errorWarning other ↔ quote = other := by
  constructor
  · intro h
    exact List.append_cancel_left (congrArg LogEntry.message h)
  · rintro rfl
    rfl

end Operation

/-- The first error among the replies to the iterations on a connection. -/
def Target.firstError? (target : Target) (events : List Event) : Option Bytes :=
  (target.iterationReplies events).find? fun reply => ReplyKind.ofBytes reply = .error

/-- The text of the reply that turned the credentials away, if that is why a run failed. -/
def RunError.rejection? : RunError → Option Bytes
  | .client (.connection (.authRejected _ reason)) => some reason
  | .numbered _ (.connection (.authRejected _ reason)) => some reason
  | _ => none

theorem RunError.eq_of_rejection? {error : RunError} {reason : Bytes}
    (h : error.rejection? = some reason) :
    ∃ endpoint, error = .client (.connection (.authRejected endpoint reason)) ∨
      ∃ index, error = .numbered index (.connection (.authRejected endpoint reason)) := by
  unfold rejection? at h
  split at h
  · rename_i endpoint found
    cases h
    exact ⟨endpoint, Or.inl rfl⟩
  · rename_i index endpoint found
    cases h
    exact ⟨endpoint, Or.inr ⟨index, rfl⟩⟩
  · cases h

namespace Exchange

theorem filter_warning (operation : Operation) (exchange : Exchange) :
    (exchange.warning? operation).toList.filter operation.warnsOfError =
      if exchange.kind = .error then [operation.errorWarning (quoted exchange.reply)] else [] := by
  unfold warning?
  cases exchange.kind <;> cases operation <;> rfl

/-- Only a reply whose kind is new is warned of. -/
theorem filter_unseen (operation : Operation) (seen : List ReplyKind) (exchange : Exchange) :
    (if exchange.kind ∈ seen then [] else (exchange.warning? operation).toList).filter
        operation.warnsOfError =
      if exchange.kind = .error ∧ ReplyKind.error ∉ seen then
        [operation.errorWarning (quoted exchange.reply)]
      else [] := by
  split
  · rename_i hseen
    rw [if_neg fun ⟨hk, hnew⟩ => hnew (hk ▸ hseen)]
    rfl
  · rename_i hnew
    rw [filter_warning]
    exact if_congr ⟨fun hk => ⟨hk, hk ▸ hnew⟩, And.left⟩ rfl rfl

/-- Of all error replies the first is quoted. -/
theorem filter_warnings (operation : Operation) (exchanges : List Exchange) :
    (warnings operation exchanges).filter operation.warnsOfError =
      ((exchanges.map reply).find? fun reply => ReplyKind.ofBytes reply = .error).toList.map
        fun reply => operation.errorWarning (quoted reply) := by
  induction exchanges using List.reverseRecOn with
  | nil => rfl
  | append_singleton past exchange ih =>
    rw [warnings_append_singleton, firstWarning_tally, List.filter_append, ih, filter_unseen,
      List.map_append, List.map_singleton, List.find?_append]
    cases hpast : (past.map reply).find? fun reply => ReplyKind.ofBytes reply = .error with
    | some first =>
      have hseen : ReplyKind.error ∈ past.map kind := by
        obtain ⟨earlier, hm, rfl⟩ := List.mem_map.mp (List.mem_of_find?_eq_some hpast)
        have herror := List.find?_some hpast
        exact List.mem_map.mpr ⟨earlier, hm, of_decide_eq_true herror⟩
      rw [if_neg fun h => h.2 hseen, List.append_nil]
      rfl
    | none =>
      have hfirst : ReplyKind.error ∉ past.map kind := by
        intro hm
        obtain ⟨earlier, hearlier, hk⟩ := List.mem_map.mp hm
        exact List.find?_eq_none.mp hpast earlier.reply (List.mem_map_of_mem hearlier)
          (decide_eq_true hk)
      by_cases hk : ReplyKind.ofBytes exchange.reply = .error
      · rw [if_pos ⟨hk, hfirst⟩]
        simp only [List.find?_singleton, hk, decide_true]
        rfl
      · rw [if_neg fun h => hk h.1]
        simp only [List.find?_singleton, hk, decide_false]
        rfl

end Exchange

theorem Target.filter_log_dial (target : Target) (operation : Operation) (script : Script) :
    (target.dial script).log.filter operation.warnsOfError = [] := by
  have hquiet : (target.connectedLog script.faults.noDelay).filter operation.warnsOfError = [] := by
    unfold connectedLog
    cases script.faults.noDelay <;> cases operation <;> rfl
  rw [List.filter_eq_nil_iff] at hquiet ⊢
  exact fun entry hm => hquiet entry (mem_connectedLog_of_mem_log hm)

/-- A client quotes the first error among the replies to its iterations, and nothing else. -/
theorem Dialled.GoesOn.filter_log {target : Target} {script : Script} {operation : Operation}
    {client : ClientRun} (h : (target.dial script).GoesOn operation client) :
    client.log.filter operation.warnsOfError = (target.firstError? client.events).toList.map
      fun reply => operation.errorWarning (Exchange.quoted reply) := by
  have hdial := target.filter_log_dial operation script
  cases h with
  | leaves =>
    have hlog : (target.dial script).leave.log = (target.dial script).log := by
      unfold Dialled.leave
      split <;> rfl
    rw [Target.firstError?, target.iterationReplies_leave, hlog, hdial]
    rfl
  | works hd slice clock =>
    rw [Target.firstError?, iterationReplies_continue hd]
    simp only [continueWith, List.filter_append, hdial, List.nil_append, Exchange.filter_warnings]

namespace Target

variable {target : Target}

/-- The reason of a rejection is the text of a reply, without the line ends at its end. -/
theorem exists_reply_of_rejected {script : Script} {endpoint : Endpoint} {reason : Bytes}
    (h : (target.dial script).result = .error (.authRejected endpoint reason)) :
    ∃ reply, reason = rejection reply := by
  unfold dial at h
  split at h
  · cases h
  · split at h
    · cases h
    · split at h
      · rename_i cause talk hgreet
        cases h
        unfold greet authenticate at hgreet
        split at hgreet
        · cases hgreet
        · dsimp only at hgreet
          split at hgreet
          · cases hgreet
          · split at hgreet
            · cases hgreet
            · cases hgreet
              exact ⟨_, rfl⟩
      · cases h

end Target

/-- Taking the line ends off a decoded reply leaves it well-formed. -/
theorem wellFormed_rejection (reply : Bytes) : Utf8.WellFormed (rejection reply) := by
  refine Utf8.wellFormed_dropTail (Utf8.wellFormed_decode reply) fun b hb => ?_
  rcases Bool.or_eq_true_iff.mp hb with h | h
  · rw [beq_iff_eq.mp h]
    decide
  · rw [beq_iff_eq.mp h]
    decide

/-- A client that was turned away has as its reason what dialling had. -/
theorem Dialled.GoesOn.rejected {dialled : Dialled} {operation : Operation} {client : ClientRun}
    (h : dialled.GoesOn operation client) {endpoint : Endpoint} {reason : Bytes}
    (hf : client.failure = some (.connection (.authRejected endpoint reason))) :
    dialled.result = .error (.authRejected endpoint reason) := by
  cases h with
  | leaves =>
    unfold leave at hf
    split at hf
    · rename_i cause hcause
      cases hf
      exact hcause
    · cases hf
  | works hd slice clock =>
    obtain ⟨failure, -, hwrong⟩ := Option.map_eq_some_iff.mp hf
    cases hwrong

namespace Driver

theorem exists_failure_of_merge {operation : Operation} {iterations : Nat} {elapsed : Int}
    {clients : List ClientRun} {error : RunError}
    (h : (merge operation iterations elapsed clients).result = .error error) :
    ∃ client ∈ clients, ∃ index cause, client.failure = some cause ∧ error = .numbered index cause := by
  unfold merge at h
  dsimp only at h
  split at h
  · rename_i first hfirst
    cases h
    obtain ⟨⟨client, index⟩, hm, hf⟩ := List.exists_of_findSome?_eq_some hfirst
    obtain ⟨cause, hcause, rfl⟩ := Option.map_eq_some_iff.mp hf
    exact ⟨client, List.fst_mem_of_mem_zipIdx hm, index, cause, hcause, rfl⟩
  · cases h

section Run

variable (driver : Driver) (target : Target) (operation : Operation) (iterations : Nat)
  (network : Network)

/-- A run quotes the first error reply to an iteration on each of its connections, and nothing else. -/
theorem filter_log_run :
    (driver.run target operation iterations network).1.log.filter operation.warnsOfError =
      ((driver.run target operation iterations network).1.connections.filterMap target.firstError?).map
        fun reply => operation.errorWarning (Exchange.quoted reply) := by
  obtain ⟨closing, hlog, hdebug⟩ := log_run driver target operation iterations network
  have hclosing : closing.filter operation.warnsOfError = [] := by
    rw [List.filter_eq_nil_iff]
    intro entry hm hw
    have hlevel := Operation.level_of_warnsOfError hw
    rw [hdebug entry hm] at hlevel
    cases hlevel
  have hclients := forall₂_workers target operation iterations network driver
  rw [hlog, List.filter_append, hclosing, List.append_nil,
    (madeOf_run target operation iterations network driver).connections]
  generalize driver.workers target operation iterations network = clients at hclients
  generalize (network.nextScripts driver.clients).take clients.length = scripts at hclients
  induction hclients with
  | nil => rfl
  | @cons script client scripts clients hclient _ ih =>
    rw [List.flatMap_cons, List.filter_append, ih, hclient.filter_log, List.map_cons,
      List.filterMap_cons]
    cases target.firstError? client.events <;> rfl

theorem exists_failure_of_rejection {error : RunError} {reason : Bytes}
    (h : (driver.run target operation iterations network).1.result = .error error)
    (hr : error.rejection? = some reason) :
    ∃ client ∈ driver.workers target operation iterations network, ∃ endpoint,
      client.failure = some (.connection (.authRejected endpoint reason)) := by
  obtain ⟨endpoint, hcase⟩ := RunError.eq_of_rejection? hr
  by_cases hlimit : Operation.maxIterations < iterations
  · simp only [Driver.run, if_pos hlimit] at h
    cases h
    rcases hcase with hcase | ⟨index, hcase⟩ <;> cases hcase
  simp only [Driver.run, workers, if_neg hlimit] at h ⊢
  cases driver with
  | sequential =>
    obtain ⟨hfailed, hdone⟩ := runSequential_spec target operation iterations network
    cases hf : (target.runClient operation ⟨0, iterations⟩ network.ownScript).failure with
    | none =>
      rw [hdone hf] at h
      cases h
    | some cause =>
      rw [hfailed cause hf] at h
      cases h
      rcases hcase with hcase | ⟨index, hcase⟩ <;> cases hcase
      exact ⟨_, List.mem_singleton_self _, endpoint, hf⟩
  | concurrent others =>
    cases hf : network.failingAmong (others + 1) with
    | some index =>
      simp only [runConcurrent, hf] at h
      cases h
      rcases hcase with hcase | ⟨index, hcase⟩ <;> cases hcase
    | none =>
      simp only [runConcurrent, hf] at h
      obtain ⟨client, hm, index, cause, hfailure, rfl⟩ := exists_failure_of_merge h
      rcases hcase with hcase | ⟨index, hcase⟩ <;> cases hcase
      refine ⟨client, ?_, endpoint, hfailure⟩
      simp only [hf]
      exact hm

/-- The reason that a rejected run gives is well-formed, whatever the server sent. -/
theorem wellFormed_of_rejection {error : RunError} {reason : Bytes}
    (h : (driver.run target operation iterations network).1.result = .error error)
    (hr : error.rejection? = some reason) : Utf8.WellFormed reason := by
  obtain ⟨client, hm, endpoint, hf⟩ :=
    exists_failure_of_rejection driver target operation iterations network h hr
  obtain ⟨script, -, hclient⟩ :=
    exists_of_mem_forall₂ (forall₂_workers target operation iterations network driver) hm
  obtain ⟨reply, rfl⟩ := Target.exists_reply_of_rejected (Dialled.GoesOn.rejected hclient hf)
  exact wellFormed_rejection reply

end Run

/-- What the operator sees of a server is well-formed: each quote in a warning of an error reply, and the
reason of a run that was turned away. -/
structure ShowsWellFormed (operation : Operation) (written : List LogEntry)
    (result : Except RunError OperationRun) : Prop where
  quotes : ∀ quote, operation.errorWarning quote ∈ written → Utf8.WellFormed quote
  rejections : ∀ error reason, result = .error error → error.rejection? = some reason →
    Utf8.WellFormed reason

section Shown

variable {operation : Operation} {written : List LogEntry} {replies : List Bytes} {shown : Prop}
  [Decidable shown] (h : (written.filter operation.warnsOfError).Perm
    (if shown then replies.map fun reply => operation.errorWarning (Exchange.quoted reply) else []))

include h

theorem errorWarning_mem_iff (quote : Bytes) :
    operation.errorWarning quote ∈ written ↔ shown ∧ ∃ reply ∈ replies, Exchange.quoted reply = quote := by
  have hfilter : operation.errorWarning quote ∈ written.filter operation.warnsOfError ↔
      operation.errorWarning quote ∈ written := by
    rw [List.mem_filter, and_iff_left (operation.warnsOfError_errorWarning quote)]
  rw [← hfilter, h.mem_iff]
  split
  · rename_i hshown
    simp only [List.mem_map, Operation.errorWarning_inj, hshown, true_and]
  · rename_i hhidden
    exact iff_of_false List.not_mem_nil fun h => hhidden h.1

/-- A quote is whole characters, and behind them at most the start of one more. -/
theorem exists_quote_eq {quote : Bytes} (hquote : operation.errorWarning quote ∈ written) :
    ∃ whole rest, quote = whole ++ rest ∧ Utf8.WellFormed whole ∧
      (rest = [] ∨ Utf8.IsUnfinished rest ∧ rest.length ≤ 3) := by
  obtain ⟨-, reply, -, rfl⟩ := (errorWarning_mem_iff h quote).mp hquote
  obtain ⟨whole, rest, htake, hwhole, hrest⟩ :=
    Utf8.exists_take_eq (Utf8.wellFormed_decode reply) Exchange.quoteLimit
  exact ⟨whole, rest, htake, hwhole, hrest.imp_right fun h => ⟨h, h.length_le⟩⟩

theorem showsWellFormed_iff {result : Except RunError OperationRun}
    (hrejections : ∀ error reason, result = .error error → error.rejection? = some reason →
      Utf8.WellFormed reason) :
    ShowsWellFormed operation written result ↔
      (shown → ∀ reply ∈ replies, Utf8.IsBoundary ((Utf8.decode reply).drop Exchange.quoteLimit)) := by
  have hcut : ∀ reply, Utf8.WellFormed (Exchange.quoted reply) ↔
      Utf8.IsBoundary ((Utf8.decode reply).drop Exchange.quoteLimit) :=
    fun reply => Utf8.wellFormed_take_iff (Utf8.wellFormed_decode reply) Exchange.quoteLimit
  constructor
  · intro hshows hshown reply hreply
    exact (hcut reply).mp
      (hshows.quotes _ ((errorWarning_mem_iff h _).mpr ⟨hshown, reply, hreply, rfl⟩))
  · intro hboundaries
    refine ⟨fun quote hquote => ?_, hrejections⟩
    obtain ⟨hshown, reply, hreply, rfl⟩ := (errorWarning_mem_iff h quote).mp hquote
    exact (hcut reply).mpr (hboundaries hshown reply hreply)

end Shown

/-- A call shows text of the server as quotes of the first error reply to an iteration on each connection,
if warnings are shown, and as the reason if it was turned away. The reason is well-formed. A quote is
well-formed exactly if a character begins behind its end, and else it ends in the start of one, of three
bytes at most. So what the operator sees is well-formed exactly if no quote is cut within a character. -/
theorem replies_shown (driver : Driver) (target : Target) (operation : Operation) (iterations : Nat)
    (network : Network) (logger : Logger) :
    (∃ call, CallsLogging target operation iterations network logger driver call) ∧
    ∀ call, CallsLogging target operation iterations network logger driver call →
      ∃ written, call.logger = { logger with written := logger.written ++ written } ∧
        (written.filter operation.warnsOfError).Perm
          (if LogLevel.warn.rank ≤ logger.threshold.rank then
            (call.connections.filterMap target.firstError?).map fun reply =>
              operation.errorWarning (Exchange.quoted reply)
          else []) ∧
        (∀ error reason, call.result = .error error → error.rejection? = some reason →
          Utf8.WellFormed reason) ∧
        (∀ quote, operation.errorWarning quote ∈ written →
          ∃ whole rest, quote = whole ++ rest ∧ Utf8.WellFormed whole ∧
            (rest = [] ∨ Utf8.IsUnfinished rest ∧ rest.length ≤ 3)) ∧
        (ShowsWellFormed operation written call.result ↔
          (LogLevel.warn.rank ≤ logger.threshold.rank →
            ∀ reply ∈ call.connections.filterMap target.firstError?,
              Utf8.IsBoundary ((Utf8.decode reply).drop Exchange.quoteLimit))) := by
  refine ⟨exists_callsLogging driver target operation iterations network logger, fun call h => ?_⟩
  obtain ⟨reported, rfl, hentries, -⟩ := h.spec
  have hrejections : ∀ error reason,
      (driver.run target operation iterations network).1.result = .error error →
        error.rejection? = some reason → Utf8.WellFormed reason :=
    fun error reason => wellFormed_of_rejection driver target operation iterations network
  have hquotes : ((reported.filter (LogEntry.isShown logger.threshold)).filter
      operation.warnsOfError).Perm (if LogLevel.warn.rank ≤ logger.threshold.rank then
        ((driver.run target operation iterations network).1.connections.filterMap
          target.firstError?).map fun reply => operation.errorWarning (Exchange.quoted reply)
      else []) := by
    rw [LogEntry.filter_filter_isShown fun _ => Operation.level_of_warnsOfError, ← filter_log_run]
    split
    · exact hentries.filter _
    · exact .nil
  exact ⟨_, logger.logEach_eq reported, hquotes, hrejections, fun _ => exists_quote_eq hquotes,
    showsWellFormed_iff hquotes hrejections⟩

/-- Two clients with a password. The first is answered with two errors, of which the first has a character
that begins right behind the quote. The second is turned away with a byte that is no UTF-8. -/
theorem replies_shown_two_clients :
    let target : Target := { password := utf8 "pw" }
    let long : Bytes := utf8 "-" ++ List.replicate 79 97 ++ [0xC3, 0xA9]
    let network : Network := { scripts := [
      { peer := { reads := [.data (utf8 "+OK\r\n"), .data long, .data (utf8 "-ERR\r\n")] } },
      { peer := { reads := [.data (utf8 "-WRONGPASS caf" ++ [0xE9] ++ utf8 "\r\n")] } }] }
    let logger : Logger := {}
    ∃ call written, CallsLogging target .get 4 network logger (.concurrent 1) call ∧
      call.logger = { logger with written := logger.written ++ written } ∧
      Operation.get.errorWarning (utf8 "-" ++ List.replicate 79 97) ∈ written ∧
      ShowsWellFormed .get written call.result ∧
      ∃ error, call.result = .error error ∧
        error.rejection? = some (utf8 "-WRONGPASS caf" ++ Utf8.replacement) := by
  intro target long network logger
  obtain ⟨⟨call, hcall⟩, hshown⟩ := replies_shown (.concurrent 1) target .get 4 network logger
  obtain ⟨written, hlogger, hquotes, -, -, hshows⟩ := hshown call hcall
  have hrun : ((concurrent 1).run target .get 4 network).1.connections.filterMap target.firstError? =
        [long] ∧
      (match ((concurrent 1).run target .get 4 network).1.result with
        | .error error => error.rejection?
        | .ok _ => none) = some (utf8 "-WRONGPASS caf" ++ Utf8.replacement) := by decide +kernel
  obtain ⟨reported, rfl, -⟩ := hcall.spec
  rw [hrun.1] at hquotes hshows
  refine ⟨_, written, hcall, hlogger, ?_, hshows.mpr fun _ => ?_, ?_⟩
  · refine (errorWarning_mem_iff hquotes _).mpr ⟨by decide, long, List.mem_singleton_self _, ?_⟩
    decide +kernel
  · exact List.forall_mem_singleton.mpr (by decide +kernel)
  · have hrejected := hrun.2
    cases hresult : ((concurrent 1).run target .get 4 network).1.result with
    | ok run => rw [hresult] at hrejected; cases hrejected
    | error error =>
      rw [hresult] at hrejected
      exact ⟨error, rfl, hrejected⟩

/-- An error reply of well-formed text in which a character of two bytes begins at the last byte that is
quoted. The warning shows the first byte alone. -/
theorem quote_cut_within_character :
    let reply : Bytes := utf8 "-" ++ List.replicate 78 97 ++ [0xC3, 0xA9] ++ utf8 "\r\n"
    let network : Network := { scripts := [{ peer := { reads := [.data reply] } }] }
    let logger : Logger := { threshold := .warn }
    Utf8.WellFormed reply ∧
    (∃ call, CallsLogging {} .ping 1 network logger .sequential call) ∧
    ∀ call, CallsLogging {} .ping 1 network logger .sequential call →
      call.logger.written = [Operation.ping.errorWarning (utf8 "-" ++ List.replicate 78 97 ++ [0xC3])] ∧
        ¬ShowsWellFormed .ping call.logger.written call.result := by
  intro reply network logger
  refine ⟨by decide +kernel, exists_callsLogging _ _ _ _ _ _, fun call hcall => ?_⟩
  obtain ⟨reported, rfl, -, hlog⟩ := hcall.spec
  have hwritten : (logger.logEach reported).written =
      [Operation.ping.errorWarning (utf8 "-" ++ List.replicate 78 97 ++ [0xC3])] := by
    rw [logger.logEach_eq, hlog rfl]
    decide +kernel
  refine ⟨hwritten, fun hshows => ?_⟩
  have hquote := hshows.quotes (utf8 "-" ++ List.replicate 78 97 ++ [0xC3])
    (hwritten ▸ List.mem_singleton_self _)
  exact absurd hquote (by decide +kernel)

end Driver

end RespLoad
