import RespLoad.Latency
import RespLoad.Bytes

/-!
# Measurements

What one operation's benchmark comes to: how many iterations in what time, the latencies, and how many
replies were out of the ordinary. A summary gathers the measurements of a run and judges their average
throughput.
-/
namespace RespLoad

/-- How many replies were empty, were errors, and held bytes that are no UTF-8. -/
structure ReplyTally where
  empty : Nat := 0
  errors : Nat := 0
  lossy : Nat := 0
  deriving Repr, DecidableEq

/-- The measurement of one operation. The throughput is a `Float`, for averages are taken of it; the
other figures are only shown. -/
structure Measurement where
  operation : Bytes := []
  iterations : Nat := 0
  totalSeconds : Binary64 := 0
  opsPerSecond : Float := 0
  latency : LatencyStats Binary64 := ⟨0, 0, 0, 0, 0, 0⟩
  replies : ReplyTally := {}
  deriving Repr

/-- Iterations per second; zero when no time has passed. -/
def throughput (iterations : Nat) (seconds : Float) : Float :=
  if seconds ≤ 0 then 0 else (iterations : Float) / seconds

/-- The measurements of a run and the names of the operations that failed. -/
structure Summary where
  completed : List Measurement
  failed : List Bytes

namespace Summary

/-- The unweighted mean of the throughputs, zero when nothing completed. -/
def averageThroughput (completed : List Measurement) : Float :=
  if completed.isEmpty then 0
  else completed.foldl (fun total m => total + m.opsPerSecond) 0 / (completed.length : Float)

def average (summary : Summary) : Float := averageThroughput summary.completed

end Summary

/-- The judgement on an average throughput. -/
inductive Verdict where
  | belowKillSwitch
  | pass
  | success
  deriving Repr, DecidableEq

/-- Operations per second below which a run fails a strict judgement. -/
def killSwitch : Float := 30000

/-- Operations per second that a run is meant to reach. -/
def target : Float := 50000

/-- Judges an average; what is neither below the one bound nor at the other passes. -/
def Verdict.ofAverage (average : Float) : Verdict :=
  if average < killSwitch then .belowKillSwitch
  else if target ≤ average then .success
  else .pass

end RespLoad
