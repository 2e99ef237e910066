import RespLoad.Proofs.Driver.Workers

/-!
# What a run sees of a clock

A run sees the readings that it takes, one after the other. It sees nothing of those that were taken
before, and which calls it makes does not depend on any of them: a range of iterations makes the same
calls by every clock, and completes the same exchanges by clocks that show the same for two readings per
iteration. So networks with the same scripts, readings and thread starts ahead of them give the same
runs, whatever lies behind.
-/
namespace RespLoad

namespace Clock

/-- The reading that comes after so many others. -/
def ahead (clock : Clock) (k : Nat) : Int := clock.reading (clock.taken + k)

/-- The clock once so many readings more have been taken. -/
def skip (clock : Clock) (count : Nat) : Clock := { clock with taken := clock.taken + count }

theorem read_eq (clock : Clock) : clock.read = (clock.ahead 0, clock.skip 1) := rfl

theorem ahead_skip (clock : Clock) (count k : Nat) :
    (clock.skip count).ahead k = clock.ahead (count + k) := by
  simp only [ahead, skip, Nat.add_assoc]

theorem skip_skip (clock : Clock) (count more : Nat) :
    (clock.skip count).skip more = clock.skip (count + more) := by
  simp only [skip, Nat.add_assoc]

end Clock

/-- How many readings were taken: two for each exchange, and one for an iteration that failed. -/
def Iterations.readings (work : Iterations) : Nat :=
  2 * work.exchanges.length + work.failure.elim 0 fun _ => 1

section Iterating

variable {operation : Operation} {count index : Nat} {peer : Peer} {clock : Clock} {work : Iterations}

/-- What is left of the clock are the readings behind those that were taken. -/
theorem Iterates.clock_eq (h : Iterates operation count index peer clock work) :
    work.clock = clock.skip work.readings := by
  induction h with
  | done index peer clock => rfl
  | failed count clock hr => rfl
  | @exchanged count index peer clock reply later hr hl ih =>
    have hreadings : ∀ exchange events, (later.after exchange events).readings =
        2 + later.readings := by
      intro exchange events
      simp only [Iterations.readings, Iterations.after, List.length_cons]
      omega
    rw [hreadings, ← Clock.skip_skip]
    exact ih

/-- By another clock the same calls are made, and they end in the same way. -/
theorem Iterates.sameCalls (h : Iterates operation count index peer clock work) (other : Clock) :
    (operation.iterate count index peer other).events = work.events ∧
      (operation.iterate count index peer other).failure = work.failure := by
  induction h generalizing other with
  | done index peer clock => exact ⟨rfl, rfl⟩
  | failed count clock hr =>
    simp only [Operation.iterate, hr, and_self]
  | exchanged hr hl ih =>
    obtain ⟨hevents, hfailure⟩ := ih other.read.2.read.2
    simp only [Operation.iterate, hr]
    exact ⟨congrArg (_ ++ ·) hevents, hfailure⟩

/-- By a clock that shows the same on the next readings the same exchanges are completed. -/
theorem Iterates.exchanges_eq (h : Iterates operation count index peer clock work) {other : Clock}
    (hother : ∀ k < 2 * count, other.ahead k = clock.ahead k) :
    (operation.iterate count index peer other).exchanges = work.exchanges := by
  induction h generalizing other with
  | done index peer clock => rfl
  | failed count clock hr => simp only [Operation.iterate, hr]
  | @exchanged count index peer clock reply later hr hl ih =>
    -- The first two readings are of this exchange, and the others of those behind it.
    have hlater : ∀ k < 2 * count, (other.skip 2).ahead k = (clock.skip 2).ahead k := by
      intro k hk
      rw [Clock.ahead_skip, Clock.ahead_skip]
      exact hother (2 + k) (by omega)
    have hstarted : other.read.1 = clock.read.1 := hother 0 (by omega)
    have hended : other.read.2.read.1 = clock.read.2.read.1 := hother 1 (by omega)
    simp only [Operation.iterate, hr, Iterations.after]
    rw [hstarted, hended]
    exact congrArg (_ :: ·) (ih hlater)

end Iterating

/-- Two scripts say the same of a server: they differ in the client's clock at most. -/
structure Script.SameServer (a b : Script) : Prop where
  lookup : a.lookup = b.lookup
  faults : a.faults = b.faults
  peer : a.peer = b.peer

theorem Network.sameServer_ownScript (network : Network) :
    network.ownScript.SameServer network.nextScript := ⟨rfl, rfl, rfl⟩

namespace Script.SameServer

variable {a b c : Script}

theorem trans (h : a.SameServer b) (h' : b.SameServer c) : a.SameServer c :=
  ⟨h.lookup.trans h'.lookup, h.faults.trans h'.faults, h.peer.trans h'.peer⟩

/-- Dialling does not read the clock. -/
theorem dial (h : a.SameServer b) (target : Target) : target.dial a = target.dial b := by
  simp only [Target.dial, Target.greet, h.lookup, h.faults, h.peer]

/-- A client makes the same calls by every clock, and fails in the same way or not at all. -/
theorem runClient (h : a.SameServer b) (target : Target) (operation : Operation) (slice : Slice) :
    (target.runClient operation slice a).events = (target.runClient operation slice b).events ∧
      (target.runClient operation slice a).failure =
        (target.runClient operation slice b).failure := by
  have hsame := h.dial target
  cases hd : (target.dial b).result with
  | error cause =>
    rw [runClient_of_error hd, runClient_of_error (hsame ▸ hd), hsame]
    exact ⟨rfl, rfl⟩
  | ok peer =>
    rw [runClient_of_ok hd, runClient_of_ok (hsame ▸ hd), hsame]
    obtain ⟨hevents, hfailure⟩ :=
      (iterates_iterate operation slice.count slice.first peer b.clock).sameCalls a.clock
    exact ⟨congrArg (_ ++ · ++ _) hevents, congrArg (Option.map _) hfailure⟩

/-- By clocks that show the same during its iterations a client completes the same exchanges. -/
theorem exchanges (h : a.SameServer b) (target : Target) (operation : Operation) (slice : Slice)
    (hclock : ∀ k < 2 * slice.count, a.clock.ahead k = b.clock.ahead k) :
    (target.runClient operation slice a).exchanges =
      (target.runClient operation slice b).exchanges := by
  have hsame := h.dial target
  cases hd : (target.dial b).result with
  | error cause => rw [runClient_of_error hd, runClient_of_error (hsame ▸ hd), hsame]
  | ok peer =>
    rw [runClient_of_ok hd, runClient_of_ok (hsame ▸ hd)]
    exact (iterates_iterate operation slice.count slice.first peer b.clock).exchanges_eq hclock

end Script.SameServer

namespace Network

theorem startFailsAhead_countStarts (network : Network) (count index : Nat) :
    (network.countStarts count).startFailsAhead index = network.startFailsAhead (count + index) := by
  simp only [startFailsAhead, countStarts, Nat.add_assoc]

/-- The same lies ahead: the scripts of the next connections, the next readings of the clock and the
next thread starts. -/
structure SameAhead (a b : Network) : Prop where
  scripts : a.scripts = b.scripts
  readings : ∀ k, a.clock.ahead k = b.clock.ahead k
  starts : ∀ k, a.startFailsAhead k = b.startFailsAhead k

/-- The network as a program meets it that starts only now: nothing lies behind. -/
def afresh (network : Network) : Network where
  scripts := network.scripts
  clock := { reading := network.clock.ahead }
  startFails := network.startFailsAhead

theorem sameAhead_afresh (network : Network) : network.SameAhead network.afresh := by
  refine ⟨rfl, fun k => ?_, fun k => ?_⟩
  · simp only [afresh, Clock.ahead, Nat.zero_add]
  · show _ = network.startFailsAhead (0 + k)
    rw [Nat.zero_add]

namespace SameAhead

variable {a b : Network}

theorem nextScript (h : a.SameAhead b) : a.nextScript = b.nextScript := by
  rw [Network.nextScript, Network.nextScript, h.scripts]

theorem dropScripts (h : a.SameAhead b) (count : Nat) :
    (a.dropScripts count).SameAhead (b.dropScripts count) :=
  ⟨congrArg (List.drop count) h.scripts, h.readings, h.starts⟩

theorem countStarts (h : a.SameAhead b) (count : Nat) :
    (a.countStarts count).SameAhead (b.countStarts count) := by
  refine ⟨h.scripts, h.readings, fun k => ?_⟩
  rw [startFailsAhead_countStarts, startFailsAhead_countStarts, h.starts]

theorem skip (h : a.SameAhead b) (count : Nat) :
    SameAhead { a with clock := a.clock.skip count } { b with clock := b.clock.skip count } := by
  refine ⟨h.scripts, fun k => ?_, h.starts⟩
  rw [Clock.ahead_skip, Clock.ahead_skip]
  exact h.readings (count + k)

theorem failingAmong (h : a.SameAhead b) (count : Nat) :
    a.failingAmong count = b.failingAmong count := by
  exact congrArg (List.find? · (List.range count)) (funext h.starts)

end SameAhead

end Network

/-- By clocks with the same readings ahead a range of iterations comes to the same, and takes as many of
them. -/
theorem Operation.iterate_sameAhead (operation : Operation) (count index : Nat) (peer : Peer)
    {a b : Clock} (h : ∀ k, a.ahead k = b.ahead k) :
    ∃ exchanges failure events readings,
      operation.iterate count index peer a = ⟨exchanges, failure, events, a.skip readings⟩ ∧
        operation.iterate count index peer b = ⟨exchanges, failure, events, b.skip readings⟩ := by
  have ha := iterates_iterate operation count index peer a
  have hb := iterates_iterate operation count index peer b
  obtain ⟨hevents, hfailure⟩ := hb.sameCalls a
  have hexchanges := hb.exchanges_eq fun k _ => h k
  have hclock := ha.clock_eq
  have hclock' := hb.clock_eq
  rw [Iterations.readings, hexchanges, hfailure] at hclock
  rw [Iterations.readings] at hclock'
  generalize operation.iterate count index peer a = work at *
  obtain ⟨exchanges, failure, events, clock⟩ := work
  cases hexchanges
  cases hfailure
  cases hevents
  cases hclock
  exact ⟨_, _, _, _, rfl, by rw [← hclock']⟩

namespace Driver

/-- The sequential driver is one client that reads the program's clock between a first and a last
reading. -/
theorem runSequential_spec (target : Target) (operation : Operation) (iterations : Nat)
    (network : Network) :
    let client := target.runClient operation ⟨0, iterations⟩ network.ownScript
    let attempt := (runSequential target operation iterations network).1
    (∀ cause, client.failure = some cause → attempt.result = .error (.client cause)) ∧
      (client.failure = none → attempt.result = .ok (.ofExchanges operation iterations
        (network.clock.ahead (1 + 2 * iterations) - network.clock.ahead 0) client.exchanges)) := by
  intro client attempt
  have hsame := network.sameServer_ownScript.dial target
  cases hd : (target.dial network.nextScript).result with
  | error cause =>
    have hclient : client = (target.dial network.nextScript).leave :=
      (runClient_of_error (hsame.symm ▸ hd) operation ⟨0, iterations⟩).trans (by rw [hsame])
    simp only [hclient, attempt, runSequential, hd, Dialled.leave]
    exact ⟨fun _ h => by cases h; rfl, fun h => by cases h⟩
  | ok peer =>
    have hclient : client = (target.dial network.nextScript).continueWith operation
        (operation.iterate iterations 0 peer (network.clock.skip 1)) :=
      (runClient_of_ok (hsame.symm ▸ hd) operation ⟨0, iterations⟩).trans (by rw [hsame]; rfl)
    have hwork := iterates_iterate operation iterations 0 peer (network.clock.skip 1)
    simp only [hclient, attempt, runSequential, hd, Network.readClock, Network.dropScripts,
      Clock.read_eq]
    generalize operation.iterate iterations 0 peer (network.clock.skip 1) = work at hwork
    cases hf : work.failure with
    | some cause =>
      simp only [Dialled.continueWith, hf, Option.map_some]
      exact ⟨fun _ h => by cases h; rfl, fun h => by cases h⟩
    | none =>
      have hall : work.exchanges.length = iterations := by
        obtain ⟨-, ⟨-, hall⟩ | ⟨cause, hsome, -⟩⟩ := hwork.runsRange
        · exact hall
        · rw [hf] at hsome
          cases hsome
      have hstop : work.clock.ahead 0 = network.clock.ahead (1 + 2 * iterations) := by
        have hreadings : work.readings = 2 * iterations := by
          rw [Iterations.readings, hf, hall]
          rfl
        rw [hwork.clock_eq, hreadings, Clock.skip_skip, Clock.ahead_skip, Nat.add_zero]
      simp only [Dialled.continueWith, hf, Option.map_none, hstop]
      refine ⟨fun _ h => ?_, fun _ => trivial⟩
      cases h

/-- The attempts are the same, and so is what lies ahead after them. -/
structure SameOutcome (a b : Attempt × Network) : Prop where
  attempt : a.1 = b.1
  ahead : a.2.SameAhead b.2

section SameAhead

variable {a b : Network} (h : a.SameAhead b) (target : Target)

include h

theorem sameOutcome_runSequential (operation : Operation) (iterations : Nat) :
    SameOutcome (runSequential target operation iterations a)
      (runSequential target operation iterations b) := by
  have hscript := h.nextScript
  have hstart := h.readings 0
  cases hd : (target.dial b.nextScript).result with
  | error cause =>
    simp only [runSequential, hscript, hd]
    exact ⟨rfl, h.dropScripts 1⟩
  | ok peer =>
    have hbegun := (h.dropScripts 1).skip 1
    obtain ⟨exchanges, failure, events, readings, hwork, hwork'⟩ :=
      operation.iterate_sameAhead iterations 0 peer hbegun.readings
    simp only [Network.dropScripts] at hwork hwork'
    simp only [runSequential, hscript, hd, Network.readClock, Network.dropScripts, Clock.read_eq,
      hwork, hwork', Dialled.continueWith]
    cases failure with
    | some cause => exact ⟨rfl, hbegun.skip readings⟩
    | none =>
      have hended := hbegun.skip readings
      have hstop := hended.readings 0
      simp only [Network.dropScripts] at hstop
      simp only [Option.map_none, hstart, hstop]
      exact ⟨rfl, hended.skip 1⟩

theorem sameOutcome_runConcurrent (clients : Nat) (operation : Operation) (iterations : Nat) :
    SameOutcome (runConcurrent target clients operation iterations a)
      (runConcurrent target clients operation iterations b) := by
  have hscripts := Network.nextScripts_congr h.scripts
  cases hf : b.failingAmong clients with
  | some index =>
    simp only [runConcurrent, (h.failingAmong clients).trans hf, hf, hscripts]
    exact ⟨rfl, (h.dropScripts index).countStarts (index + 1)⟩
  | none =>
    have hdone := ((h.dropScripts clients).countStarts clients).skip 1
    have hstop := hdone.readings 0
    simp only [Network.countStarts, Network.dropScripts] at hstop
    simp only [runConcurrent, (h.failingAmong clients).trans hf, hf, hscripts, Network.readClock,
      Network.countStarts, Network.dropScripts, Clock.read_eq, h.readings 0, hstop]
    exact ⟨rfl, hdone.skip 1⟩

theorem sameOutcome_run (driver : Driver) (operation : Operation) (iterations : Nat) :
    SameOutcome (driver.run target operation iterations a)
      (driver.run target operation iterations b) := by
  by_cases hlimit : Operation.maxIterations < iterations
  · simp only [Driver.run, if_pos hlimit]
    exact ⟨rfl, h⟩
  · simp only [Driver.run, if_neg hlimit]
    cases driver with
    | sequential => exact sameOutcome_runSequential h target operation iterations
    | concurrent others => exact sameOutcome_runConcurrent h target (others + 1) operation iterations

end SameAhead

theorem runEach_sameAhead {a b : Network} (h : a.SameAhead b) (driver : Driver) (target : Target)
    (calls : List (Operation × Nat)) :
    (driver.runEach target calls a).1 = (driver.runEach target calls b).1 := by
  induction calls generalizing a b with
  | nil => rfl
  | cons call more ih =>
    obtain ⟨operation, iterations⟩ := call
    obtain ⟨hattempt, hahead⟩ := sameOutcome_run h target driver operation iterations
    simp only [Driver.runEach, hattempt, ih hahead]

end Driver

end RespLoad
