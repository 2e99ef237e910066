import RespLoad.Program
import Std.Time.DateTime.Timestamp

/-!
# Command line

The thin layer around the program: it takes the words of the command line, reads the configuration
file that they name, and writes what the program came to. Output and log are pure functions of these
and of a network. The network handed in here has no listener: each connection is refused.
-/
namespace RespLoad.Main

/-- Writes bytes to a stream. -/
def write (stream : IO.FS.Stream) (bytes : Bytes) : IO Unit :=
  stream.write (ByteArray.mk bytes.toArray)

/-- The content of a file, if it can be opened. -/
def readFile? (path : Bytes) : IO (Option Bytes) := do
  match String.fromUTF8? (ByteArray.mk path.toArray) with
  | none => return none
  | some name =>
    try
      return some (← IO.FS.readBinFile name).toList
    catch _ => return none

/-- The files that a command line can refer to: at most the one it names. -/
def filesFor (argv : List Bytes) : IO Files := do
  match CommandLine.parse argv with
  | .error _ => return fun _ => none
  | .ok commandLine =>
    let content ← readFile? commandLine.configPath
    return fun path => if path = commandLine.configPath then content else none

/-- The wall clock in milliseconds since the start of 1970. -/
def now : IO Int := return (← Std.Time.Timestamp.now).toMillisecondsSinceUnixEpoch.val

end RespLoad.Main

open RespLoad in
/-- Runs the program on its arguments. The word in front of them, the program's name, is not looked
at. -/
def main (args : List String) : IO UInt32 := do
  let argv := [] :: args.map utf8
  let execution := execute argv (← Main.filesFor argv) {}
  let errors ← IO.getStderr
  for complaint in execution.complaint? do
    Main.write errors (Report.line complaint)
  for entry in execution.shownLog do
    Main.write errors (entry.line (← Main.now))
  Main.write (← IO.getStdout) execution.output
  return UInt32.ofNat execution.exitCode.toNat
