import RespLoad.Benchmark
import RespLoad.Settings.CommandLine

/-!
# The program

From the words of the command line, the files that can be read and the network, to the exit code, the
text on the output and the log. Nothing is connected unless the command line and all settings are
valid.
-/
namespace RespLoad

/-- How the program is called. -/
def usage : Bytes :=
  Report.line
      (utf8 "Usage: resp-bench [--host <ip>] [--port <port>] [--iterations <n>]") ++
    Report.line (utf8
      "                  [--operations <PING,SET,GET,DEL>] [--clients <n>] [--timeout-ms <ms>]") ++
    Report.line (utf8
      "                  [--on-error <abort|continue>] [--user <name>] [--password <secret>]") ++
    Report.line (utf8
      "                  [--loglevel <error|warn|info|debug>] [--strict] [--config <path>]")

/-- What the program came to. -/
inductive Execution where
  /-- The command line was refused. -/
  | misused (cause : CommandLineError)
  /-- Help was asked for. -/
  | helped
  /-- The settings were refused. -/
  | refused (cause : ResolveError)
  /-- The benchmark was run. -/
  | ran (benchmark : Benchmark) (progress : Progress)

namespace Execution

def exitCode : Execution → ExitCode
  | .misused _ | .refused _ => .failure
  | .helped => .success
  | .ran benchmark _ => benchmark.exitCode

/-- The text on the output. -/
def output : Execution → Bytes
  | .misused _ | .helped => usage
  | .refused _ => []
  | .ran benchmark _ => benchmark.report

/-- The complaint about a command line, which is not part of the log. -/
def complaint? : Execution → Option Bytes
  | .misused cause => some cause.message
  | _ => none

/-- The log, whatever the threshold. -/
def log : Execution → List LogEntry
  | .misused _ | .helped => []
  | .refused cause => [⟨.error, cause.message⟩]
  | .ran benchmark _ => benchmark.log

/-- The threshold of the log: that of the settings once they are settled. -/
def threshold : Execution → LogLevel
  | .ran benchmark _ => (LogLevel.ofName? benchmark.settings.logLevel).getD .info
  | _ => .info

/-- The entries that are shown. -/
def shownLog (execution : Execution) : List LogEntry :=
  execution.log.filter (LogEntry.isShown execution.threshold)

/-- The calls on each connection. -/
def connections : Execution → List (List Event)
  | .ran _ progress => progress.connections
  | _ => []

end Execution

/-- Runs the program. -/
def execute (argv : List Bytes) (files : Files) (network : Network) : Execution :=
  match CommandLine.parse argv with
  | .error cause => .misused cause
  | .ok commandLine =>
    if commandLine.showHelp then .helped
    else match ({} : Settings).resolve files commandLine with
      | (_, some cause) => .refused cause
      | (settings, none) =>
        let (benchmark, progress) := settings.benchmarkOn network
        .ran benchmark progress

end RespLoad
