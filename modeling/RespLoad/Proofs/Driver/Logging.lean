import Mathlib.Logic.Basic
import RespLoad.Log.Logger
import RespLoad.Driver.Run

/-!
# A client that logs

The sequential driver as it writes its log: a connection reports on itself when it is connected, an
iteration warns if its reply is the first of its kind, as the counters tell, and every entry goes to the
logger at once. It comes to what the driver comes to that collects its entries in a list, and the logger
has been given that list.
-/
namespace RespLoad

/-- Opens a connection and reports on it to the logger. -/
def Target.dialLogging (target : Target) (script : Script) (logger : Logger) :
    (Except OpenError Peer × List Event) × Logger :=
  match target.endpoint.resolve script.lookup with
  | .error cause => ((.error (.lookup target.endpoint cause), []), logger)
  | .ok address =>
    match upToFailure (target.preparations address script.faults) with
    | (events, some cause) =>
      ((.error (.call target.endpoint cause), events ++ closeIfMade events), logger)
    | (events, none) =>
      let connected := events ++ [.noDelay script.faults.noDelay]
      let logger :=
        match script.faults.noDelay with
        | some errno =>
          logger.log ⟨.warn, CallFailure.message ⟨utf8 "setsockopt(TCP_NODELAY)", errno⟩⟩
        | none => logger
      let logger := logger.log ⟨.debug, utf8 "connected to " ++ target.endpoint.text⟩
      match target.greet script with
      | (.error cause, talk) => ((.error cause, connected ++ talk ++ [.close]), logger)
      | (.ok peer, talk) => ((.ok peer, connected ++ talk), logger)

theorem Target.dialLogging_eq (target : Target) (script : Script) (logger : Logger) :
    target.dialLogging script logger =
      (((target.dial script).result, (target.dial script).events),
        logger.logEach (target.dial script).log) := by
  cases hr : target.endpoint.resolve script.lookup with
  | error cause =>
    simp only [dialLogging, dial, hr]
    rfl
  | ok address =>
    obtain ⟨⟨events, failure⟩, hup⟩ :
      ∃ pair, upToFailure (target.preparations address script.faults) = pair := ⟨_, rfl⟩
    cases failure with
    | some cause =>
      simp only [dialLogging, dial, hr, hup]
      rfl
    | none =>
      obtain ⟨⟨result, talk⟩, hg⟩ : ∃ pair, target.greet script = pair := ⟨_, rfl⟩
      have hlog : logger.logEach (target.connectedLog script.faults.noDelay) =
          (match script.faults.noDelay with
            | some errno =>
              logger.log ⟨.warn, CallFailure.message ⟨utf8 "setsockopt(TCP_NODELAY)", errno⟩⟩
            | none => logger).log ⟨.debug, utf8 "connected to " ++ target.endpoint.text⟩ := by
        rw [connectedLog, Logger.logEach_append]
        cases script.faults.noDelay <;> rfl
      cases result <;> simp only [dialLogging, dial, hr, hup, hg, ← hlog]

namespace ReplyTally

/-- No reply of this kind has been counted, and it is one that is warned of. -/
def isFirst (tally : ReplyTally) : ReplyKind → Bool
  | .empty => tally.empty == 0
  | .error => tally.errors == 0
  | _ => false

/-- Counts one exchange more. -/
def count (tally : ReplyTally) (exchange : Exchange) : ReplyTally where
  empty := tally.empty + if exchange.kind = .empty then 1 else 0
  errors := tally.errors + if exchange.kind = .error then 1 else 0
  lossy := tally.lossy + if Utf8.isLossy exchange.reply then 1 else 0

end ReplyTally

namespace Exchange

theorem tally_append_singleton (past : List Exchange) (exchange : Exchange) :
    tally (past ++ [exchange]) = (tally past).count exchange := by
  simp only [tally, ReplyTally.count, List.countP_append, List.countP_singleton, decide_eq_true_eq]

/-- What an exchange is to warn of, by the counts before it. -/
def firstWarning (operation : Operation) (tally : ReplyTally) (exchange : Exchange) :
    List LogEntry :=
  if tally.isFirst exchange.kind then (exchange.warning? operation).toList else []

theorem warnings_go_append (operation : Operation) (seen : List ReplyKind) (past : List Exchange)
    (exchange : Exchange) :
    warnings.go operation seen (past ++ [exchange]) = warnings.go operation seen past ++
      if exchange.kind ∈ seen ∨ exchange.kind ∈ past.map kind then []
      else (exchange.warning? operation).toList := by
  induction past generalizing seen with
  | nil =>
    simp only [List.nil_append, warnings.go, List.contains_iff_mem, List.map_nil, List.not_mem_nil,
      or_false, List.append_nil]
  | cons first past ih =>
    rw [List.cons_append, warnings.go, warnings.go, List.map_cons]
    by_cases hseen : seen.contains first.kind
    · have hmem := List.contains_iff_mem.mp hseen
      rw [if_pos hseen, if_pos hseen, ih]
      congr 1
      refine if_congr ?_ rfl rfl
      rw [List.mem_cons]
      constructor
      · exact fun h => h.imp_right Or.inr
      · rintro (h | h | h)
        · exact Or.inl h
        · exact Or.inl (h ▸ hmem)
        · exact Or.inr h
    · rw [if_neg hseen, if_neg hseen, ih, List.append_assoc]
      congr 2
      refine if_congr ?_ rfl rfl
      rw [List.mem_cons, List.mem_cons, or_assoc, or_left_comm]

/-- The counts say whether a reply is the first of its kind. -/
theorem firstWarning_tally (operation : Operation) (past : List Exchange) (exchange : Exchange) :
    exchange.firstWarning operation (tally past) =
      if exchange.kind ∈ past.map kind then [] else (exchange.warning? operation).toList := by
  have hcounted : ∀ reply : ReplyKind,
      (past.countP (fun earlier => earlier.kind = reply) == 0) = true ↔ reply ∉ past.map kind := by
    intro reply
    rw [beq_iff_eq, List.countP_eq_zero]
    simp only [decide_eq_true_eq, List.mem_map, not_exists, not_and]
  unfold firstWarning warning?
  cases hk : exchange.kind with
  | empty =>
    exact (if_congr (hcounted .empty) rfl rfl).trans (ite_not _ _ _)
  | error =>
    exact (if_congr (hcounted .error) rfl rfl).trans (ite_not _ _ _)
  | _ => simp only [Option.toList_none, ite_self]

/-- The warnings are told one by one, each by the counts of the exchanges before. -/
theorem warnings_append_singleton (operation : Operation) (past : List Exchange)
    (exchange : Exchange) :
    warnings operation (past ++ [exchange]) =
      warnings operation past ++ exchange.firstWarning operation (tally past) := by
  rw [warnings, warnings, warnings_go_append, firstWarning_tally]
  simp only [List.not_mem_nil, false_or]

end Exchange

/-- Runs iterations and warns of what their replies are. -/
def Operation.iterateLogging (operation : Operation) :
    Nat → Nat → Peer → Clock → ReplyTally → Logger → Iterations × Logger
  | 0, _, _, clock, _, logger => (⟨[], none, [], clock⟩, logger)
  | count + 1, index, peer, clock, tally, logger =>
    let (started, clock) := clock.read
    let answer := peer.roundTrip (operation.command index)
    match answer.result with
    | .error cause => (⟨[], some ⟨operation, index, cause⟩, answer.events, clock⟩, logger)
    | .ok reply =>
      let (ended, clock) := clock.read
      let exchange : Exchange := ⟨index, started, ended, reply⟩
      let logger := logger.logEach (exchange.firstWarning operation tally)
      let (later, logger) := operation.iterateLogging count (index + 1) answer.peer clock
        (tally.count exchange) logger
      (later.after exchange answer.events, logger)

/-- A logger that was given the warnings of the exchanges so far, and the counts of these, is given the
warnings of those that follow. -/
theorem Operation.iterateLogging_eq (operation : Operation) (count index : Nat) (peer : Peer)
    (clock : Clock) (past : List Exchange) (logger : Logger) :
    operation.iterateLogging count index peer clock (Exchange.tally past)
        (logger.logEach (Exchange.warnings operation past)) =
      (operation.iterate count index peer clock, logger.logEach (Exchange.warnings operation
        (past ++ (operation.iterate count index peer clock).exchanges))) := by
  induction count generalizing index peer clock past with
  | zero => rw [iterateLogging, iterate, List.append_nil]
  | succ count ih =>
    cases hr : (peer.roundTrip (operation.command index)).result with
    | error cause => simp only [iterateLogging, iterate, hr, List.append_nil]
    | ok reply =>
      have hlater := ih (index + 1) (peer.roundTrip (operation.command index)).peer
        clock.read.2.read.2 (past ++ [⟨index, clock.read.1, clock.read.2.read.1, reply⟩])
      rw [Exchange.tally_append_singleton, Exchange.warnings_append_singleton,
        Logger.logEach_append] at hlater
      simp only [iterateLogging, iterate, hr, hlater, Iterations.after, List.append_assoc,
        List.singleton_append]

/-- What a call of a driver came to, with the logger it has written to. -/
structure LoggedCall where
  result : Except RunError OperationRun
  connections : List (List Event)
  network : Network
  logger : Logger

namespace Driver

/-- Runs an operation on one connection and writes the log. -/
def runSequentialLogging (target : Target) (operation : Operation) (iterations : Nat)
    (network : Network) (logger : Logger) : LoggedCall :=
  let script := network.nextScript
  let network := network.dropScripts 1
  match target.dialLogging script logger with
  | ((.error cause, events), logger) =>
    ⟨.error (.client (.connection cause)), [events], network, logger⟩
  | ((.ok peer, events), logger) =>
    let (start, network) := network.readClock
    let (work, logger) := operation.iterateLogging iterations 0 peer network.clock {} logger
    let events := events ++ work.events ++ [.close]
    let network := { network with clock := work.clock }
    match work.failure with
    | some cause => ⟨.error (.client (.iteration cause)), [events], network, logger⟩
    | none =>
      let (stop, network) := network.readClock
      let run := OperationRun.ofExchanges operation iterations (stop - start) work.exchanges
      ⟨.ok run, [events], network, logger⟩

theorem runSequentialLogging_eq (target : Target) (operation : Operation) (iterations : Nat)
    (network : Network) (logger : Logger) :
    let call := runSequential target operation iterations network
    runSequentialLogging target operation iterations network logger =
      ⟨call.1.result, call.1.connections, call.2, logger.logEach call.1.log⟩ := by
  intro call
  cases hd : (target.dial network.nextScript).result with
  | error cause =>
    simp only [call, runSequentialLogging, runSequential, Target.dialLogging_eq, hd, Dialled.leave]
  | ok peer =>
    have hwork : ∀ clock logger, operation.iterateLogging iterations 0 peer clock {} logger =
        (operation.iterate iterations 0 peer clock, logger.logEach (Exchange.warnings operation
          (operation.iterate iterations 0 peer clock).exchanges)) :=
      fun clock logger => operation.iterateLogging_eq iterations 0 peer clock [] logger
    simp only [call, runSequentialLogging, runSequential, Target.dialLogging_eq, hd, hwork,
      Dialled.continueWith]
    generalize operation.iterate iterations 0 peer _ = work
    cases hf : work.failure <;>
      simp only [Option.map_none, Option.map_some, Logger.logEach_append]

end Driver

end RespLoad
