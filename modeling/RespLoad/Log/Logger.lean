import RespLoad.Log.Entry

/-!
# The log as it is written

A logger has the threshold that was set once, and takes one entry at a time: it writes what is at least as
severe as the threshold and drops the rest.
-/
namespace RespLoad

/-- A threshold, and what has been written under it so far. -/
structure Logger where
  threshold : LogLevel := .info
  written : List LogEntry := []
  deriving Repr, DecidableEq

namespace Logger

/-- Writes an entry, if it is severe enough. -/
def log (logger : Logger) (entry : LogEntry) : Logger :=
  if entry.isShown logger.threshold then { logger with written := logger.written ++ [entry] }
  else logger

/-- Writes entries one after the other. -/
def logEach (logger : Logger) (entries : List LogEntry) : Logger := entries.foldl log logger

@[simp] theorem logEach_nil (logger : Logger) : logger.logEach [] = logger := rfl

theorem logEach_append (logger : Logger) (a b : List LogEntry) :
    logger.logEach (a ++ b) = (logger.logEach a).logEach b := List.foldl_append

/-- Entries are dropped, and nothing else happens to them. -/
theorem logEach_eq (logger : Logger) (entries : List LogEntry) :
    logger.logEach entries = { logger with
      written := logger.written ++ entries.filter (LogEntry.isShown logger.threshold) } := by
  induction entries generalizing logger with
  | nil => rw [logEach_nil, List.filter_nil, List.append_nil]
  | cons entry more ih =>
    show (logger.log entry).logEach more = _
    rw [ih, List.filter_cons, log]
    split
    · rw [List.append_assoc, List.singleton_append]
    · rfl

end Logger

/-- What a threshold shows of the entries that a more talkative one shows is what it shows of all. -/
theorem LogEntry.filter_isShown {quiet loud : LogLevel} (h : quiet.rank ≤ loud.rank)
    (entries : List LogEntry) :
    (entries.filter (isShown loud)).filter (isShown quiet) = entries.filter (isShown quiet) := by
  rw [List.filter_filter]
  refine List.filter_congr fun entry _ => ?_
  simp only [isShown, Bool.and_eq_left_iff_imp, decide_eq_true_eq]
  exact fun hquiet => Nat.le_trans hquiet h

end RespLoad
