import RespLoad.Benchmark

/-!
# The texts of a benchmark, line by line

What a benchmark shows, written down a second time as lines with nothing of the report's own helpers in
them: the banner, the entry of one operation, and the section of results with its table, its notes, the
operations that failed, the average and the verdict. The report is made of these lines. How a number is
shown is not spoken of.
-/
namespace RespLoad.ReportText

/-- Lines, each with the line feed that ends it. -/
def unlines (lines : List Bytes) : Bytes := lines.flatMap (· ++ [10])

def blanks (count : Nat) : Bytes := List.replicate count 32

def rule : Bytes := utf8 "======================================================================"

def rate (opsPerSecond : Float) : Bytes := Number.thousands (Binary64.ofFloat opsPerSecond)

/-- The heading of a benchmark, and its settings. The last two are shown only when they are not the
usual ones. -/
def banner (settings : Settings) : List Bytes :=
  [rule, utf8 "RESP Server Benchmark", rule, [], utf8 "Configuration:",
    utf8 "  Host: " ++ settings.host ++ utf8 ":" ++ Decimal.ofInt settings.port,
    utf8 "  Iterations: " ++ Decimal.ofNat settings.iterations,
    utf8 "  Operations: " ++ Operation.listText settings.operations] ++
  (if 1 < settings.clients then [utf8 "  Clients: " ++ Decimal.ofInt settings.clients] else []) ++
  (if 0 < settings.timeoutMs then [utf8 "  Timeout: " ++ Decimal.ofInt settings.timeoutMs ++ utf8 " ms"]
    else []) ++
  [[], utf8 "Running benchmarks...", []]

/-- The entry of an operation: its throughput, or that it failed. -/
def entry (operation : Bytes) (measured : Option Measurement) : Bytes :=
  utf8 "Benchmarking " ++ operation ++ utf8 "... " ++
    match measured with
    | some m => utf8 "✓ " ++ rate m.opsPerSecond ++ utf8 " ops/sec\n"
    | none => utf8 "FAILED\n"

/-- A latency in the table, to the right of six places. -/
def figure (label : String) (micros : Binary64) : Bytes :=
  let digits := Number.fixed 1 micros
  utf8 " | " ++ utf8 label ++ utf8 ": " ++ blanks (6 - digits.length) ++ digits ++ utf8 " µs"

/-- The line of an operation in the table. -/
def row (m : Measurement) : Bytes :=
  let shown := rate m.opsPerSecond
  m.operation ++ blanks (10 - m.operation.length) ++ utf8 " | " ++ blanks (10 - shown.length) ++ shown ++
    utf8 " ops/sec" ++ figure "Avg" m.latency.mean ++ figure "P50" m.latency.p50 ++
    figure "P95" m.latency.p95 ++ figure "P99" m.latency.p99

/-- What is noted of an operation when some of its replies were empty, or errors. -/
def notes (m : Measurement) : List Bytes :=
  (if 0 < m.replies.empty then
    [utf8 "  note: " ++ m.operation ++ utf8 " saw " ++ Decimal.ofNat m.replies.empty ++
      utf8 " empty reads (server closed the connection)"] else []) ++
  (if 0 < m.replies.errors then
    [utf8 "  note: " ++ m.operation ++ utf8 " received " ++ Decimal.ofNat m.replies.errors ++
      utf8 " error replies"] else [])

/-- The judgement on the average. -/
def verdict (average : Float) : List Bytes :=
  if average < 30000 then
    [[], utf8 "WARNING: Performance below 30k ops/sec kill switch!",
      utf8 "   Recommendation: Ship embedded library only"]
  else if 50000 ≤ average then [[], utf8 "SUCCESS: Exceeded 50k ops/sec target!"]
  else [[], utf8 "PASS: Above 30k ops/sec kill switch"]

/-- The section of results. -/
def results (completed : List Measurement) (failed : List Bytes) (average : Float) : List Bytes :=
  [[], rule, utf8 "RESULTS", rule, []] ++ completed.map row ++ completed.flatMap notes ++
    failed.map (fun name => utf8 "  failed: " ++ name ++ utf8 " (connection error, see log)") ++
    [[], rule] ++
    if completed = [] then [[], utf8 "No operation completed."]
    else [[], utf8 "Benchmark complete!", [],
      utf8 "Average throughput: " ++ rate average ++ utf8 " ops/sec"] ++ verdict average

theorem unlines_append (lines more : List Bytes) :
    unlines (lines ++ more) = unlines lines ++ unlines more := List.flatMap_append

theorem unlines_cons (line : Bytes) (lines : List Bytes) :
    unlines (line :: lines) = Report.line line ++ unlines lines := List.flatMap_cons

theorem unlines_nil : unlines [] = [] := rfl

theorem rule_eq : Report.rule = rule := by decide

theorem banner_eq (settings : Settings) : Report.banner settings = unlines (banner settings) := by
  unfold banner Report.banner
  rw [rule_eq]
  split <;> split <;>
    simp only [unlines_append, unlines_cons, unlines_nil, List.append_assoc, List.append_nil]

theorem entry_eq (outcome : Outcome) :
    outcome.progress = entry outcome.operation.name outcome.measurement? := by
  rcases outcome with ⟨⟨cause | run, log⟩, operation⟩
  · rfl
  · have hend : utf8 " ops/sec\n" = utf8 " ops/sec" ++ [10] := by decide
    show _ ++ (utf8 "✓ " ++ rate run.measurement.opsPerSecond ++ utf8 " ops/sec" ++ [10]) =
      _ ++ (utf8 "✓ " ++ rate run.measurement.opsPerSecond ++ utf8 " ops/sec\n")
    rw [hend, List.append_assoc _ _ [10]]
    rfl

theorem row_eq (m : Measurement) : Report.row m = Report.line (row m) := by
  simp only [Report.row, row, figure, List.intercalate_cons_cons, List.intercalate_singleton,
    Report.latencyColumn, Report.padLeft, Report.padRight, List.append_assoc]
  rfl

theorem notes_eq (m : Measurement) : Report.notes m = unlines (notes m) := by
  simp only [Report.notes, notes, Nat.pos_iff_ne_zero, ite_not]
  split <;> split <;> simp only [unlines_append, unlines_cons, unlines_nil, List.append_nil]

theorem verdict_eq (average : Float) :
    Report.verdict (Verdict.ofAverage average) = unlines (verdict average) := by
  by_cases hbelow : average < 30000
  · have hjudged : Verdict.ofAverage average = .belowKillSwitch := if_pos hbelow
    rw [hjudged, verdict, if_pos hbelow]
    rfl
  · by_cases hmet : 50000 ≤ average
    · have hjudged : Verdict.ofAverage average = .success := (if_neg hbelow).trans (if_pos hmet)
      rw [hjudged, verdict, if_neg hbelow, if_pos hmet]
      rfl
    · have hjudged : Verdict.ofAverage average = .pass := (if_neg hbelow).trans (if_neg hmet)
      rw [hjudged, verdict, if_neg hbelow, if_neg hmet]
      rfl

theorem unlines_map {α : Type} (line : α → Bytes) (items : List α) :
    unlines (items.map line) = items.flatMap fun item => Report.line (line item) :=
  List.flatMap_map line _ items

theorem unlines_flatMap {α : Type} (lines : α → List Bytes) (items : List α) :
    unlines (items.flatMap lines) = items.flatMap fun item => unlines (lines item) :=
  List.flatMap_assoc

theorem results_eq (summary : Summary) :
    Report.results summary = unlines (results summary.completed summary.failed summary.average) := by
  have hempty : (summary.completed.isEmpty = true) = (summary.completed = []) :=
    propext List.isEmpty_iff
  have hnotes : Report.notes = fun m => unlines (notes m) := funext notes_eq
  have hrow : Report.row = fun m => Report.line (row m) := funext row_eq
  simp only [Report.results, results, Report.conclusion, hempty, hnotes, hrow, rule_eq]
  split <;>
    simp only [unlines_append, unlines_cons, unlines_nil, unlines_map, unlines_flatMap, verdict_eq,
      List.append_assoc, List.append_nil]
  rfl

end RespLoad.ReportText
