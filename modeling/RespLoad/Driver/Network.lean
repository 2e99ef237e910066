import RespLoad.Socket.Script

/-!
# The network

What lies ahead of a program: the scripts of the connections it will open, in order, the readings of
its clock, and which starts of threads will fail. When the scripts are used up, connections are
refused.
-/
namespace RespLoad

/-- The world as a program will meet it. -/
structure Network where
  scripts : List Script := []
  clock : Clock := Clock.steady
  /-- How many threads have been started or have failed to start. -/
  threadStarts : Nat := 0
  /-- Which starts of threads fail, counted from zero. -/
  startFails : Nat → Bool := fun _ => false

namespace Network

/-- The script of the next connection. -/
def nextScript (network : Network) : Script := network.scripts.headD Script.refused

/-- The scripts of the next so many connections. -/
def nextScripts (network : Network) (count : Nat) : List Script :=
  network.scripts.take count ++
    List.replicate (count - network.scripts.length) Script.refused

/-- The network once so many scripts have been taken. -/
def dropScripts (network : Network) (count : Nat) : Network :=
  { network with scripts := network.scripts.drop count }

/-- The reading of the program's own clock, and the network after it. -/
def readClock (network : Network) : Int × Network :=
  let (now, clock) := network.clock.read
  (now, { network with clock := clock })

/-- Whether the thread start that comes after so many others fails. -/
def startFailsAhead (network : Network) (index : Nat) : Bool :=
  network.startFails (network.threadStarts + index)

/-- The first of the next `count` thread starts that fails. -/
def failingAmong (network : Network) (count : Nat) : Option Nat :=
  (List.range count).find? network.startFailsAhead

/-- The network once so many thread starts have been tried. -/
def countStarts (network : Network) (count : Nat) : Network :=
  { network with threadStarts := network.threadStarts + count }

end Network

end RespLoad
