import RespLoad.Measurement
import RespLoad.Number.Format
import RespLoad.Settings.Basic

/-!
# The report

The text that a run writes to its output: a banner with the settings, one progress entry per
operation, and a table of results with a verdict. Columns are padded by bytes.
-/
namespace RespLoad.Report

/-- Blanks behind a text, up to a width. -/
def padRight (width : Nat) (text : Bytes) : Bytes :=
  text ++ List.replicate (width - text.length) 32

/-- Blanks in front of a text, up to a width. -/
def padLeft (width : Nat) (text : Bytes) : Bytes :=
  List.replicate (width - text.length) 32 ++ text

/-- The horizontal rule. -/
def rule : Bytes := List.replicate 70 61

/-- A text and a line feed. -/
def line (text : Bytes) : Bytes := text ++ [Bytes.lf]

/-- A throughput as it is shown everywhere. -/
def rate (opsPerSecond : Float) : Bytes := Number.thousands (Binary64.ofFloat opsPerSecond)

/-- The heading of a run and its settings. -/
def banner (settings : Settings) : Bytes :=
  line rule ++ line (utf8 "RESP Server Benchmark") ++ line rule ++ line [] ++
    line (utf8 "Configuration:") ++
    line (utf8 "  Host: " ++ settings.host ++ utf8 ":" ++ Decimal.ofInt settings.port) ++
    line (utf8 "  Iterations: " ++ Decimal.ofNat settings.iterations) ++
    line (utf8 "  Operations: " ++ Operation.listText settings.operations) ++
    (if 1 < settings.clients then line (utf8 "  Clients: " ++ Decimal.ofInt settings.clients)
      else []) ++
    (if 0 < settings.timeoutMs then
      line (utf8 "  Timeout: " ++ Decimal.ofInt settings.timeoutMs ++ utf8 " ms")
      else []) ++
    line [] ++ line (utf8 "Running benchmarks...") ++ line []

/-- What is shown when an operation starts. -/
def started (operation : Bytes) : Bytes := utf8 "Benchmarking " ++ operation ++ utf8 "... "

/-- What is shown when an operation has completed. -/
def completed (measurement : Measurement) : Bytes :=
  line (utf8 "✓ " ++ rate measurement.opsPerSecond ++ utf8 " ops/sec")

/-- What is shown when an operation has failed. -/
def failed : Bytes := line (utf8 "FAILED")

/-- One latency column. -/
def latencyColumn (label : String) (micros : Binary64) : Bytes :=
  utf8 label ++ utf8 ": " ++ padLeft 6 (Number.fixed 1 micros) ++ utf8 " µs"

/-- The row of one operation in the table of results. -/
def row (m : Measurement) : Bytes :=
  let columns :=
    [padRight 10 m.operation, padLeft 10 (rate m.opsPerSecond) ++ utf8 " ops/sec",
      latencyColumn "Avg" m.latency.mean, latencyColumn "P50" m.latency.p50,
      latencyColumn "P95" m.latency.p95, latencyColumn "P99" m.latency.p99]
  line ((utf8 " | ").intercalate columns)

/-- What is noted about the replies of one operation. -/
def notes (m : Measurement) : Bytes :=
  let note := fun verb count what =>
    if count = 0 then []
    else line (utf8 "  note: " ++ m.operation ++ utf8 verb ++ Decimal.ofNat count ++ utf8 what)
  note " saw " m.replies.empty " empty reads (server closed the connection)" ++
    note " received " m.replies.errors " error replies"

/-- The judgement on the run. -/
def verdict : Verdict → Bytes
  | .belowKillSwitch =>
    line [] ++ line (utf8 "WARNING: Performance below 30k ops/sec kill switch!") ++
      line (utf8 "   Recommendation: Ship embedded library only")
  | .pass => line [] ++ line (utf8 "PASS: Above 30k ops/sec kill switch")
  | .success => line [] ++ line (utf8 "SUCCESS: Exceeded 50k ops/sec target!")

/-- The closing lines: the average and its verdict, or that there is nothing to judge. -/
def conclusion (summary : Summary) : Bytes :=
  if summary.completed.isEmpty then line [] ++ line (utf8 "No operation completed.")
  else
    line [] ++ line (utf8 "Benchmark complete!") ++ line [] ++
      line (utf8 "Average throughput: " ++ rate summary.average ++ utf8 " ops/sec") ++
      verdict (Verdict.ofAverage summary.average)

/-- The section of results. -/
def results (summary : Summary) : Bytes :=
  line [] ++ line rule ++ line (utf8 "RESULTS") ++ line rule ++ line [] ++
    summary.completed.flatMap row ++ summary.completed.flatMap notes ++
    summary.failed.flatMap (fun name =>
      line (utf8 "  failed: " ++ name ++ utf8 " (connection error, see log)")) ++
    line [] ++ line rule ++ conclusion summary

end RespLoad.Report
