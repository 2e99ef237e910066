import RespLoad.Proofs.Driver.Readings

/-!
# One client on a thread of its own

The concurrent driver with one client against the sequential driver, whose client takes its times from the
program's clock. On the same script both make the same calls and end in the same way, the error being
named for the client; if the clocks show the same at corresponding points, the runs are equal, times and
all. The log is not spoken of.
-/
namespace RespLoad

namespace Driver

theorem withClients_of_le_one {clients : Int} (h : clients ≤ 1) :
    withClients clients = .concurrent 0 := by
  have hzero : (clients - 1).toNat = 0 := by omega
  rw [withClients, hzero]

theorem slices_one (iterations : Nat) : slices iterations 1 = [⟨0, iterations⟩] := by
  have hshare : share iterations 1 0 = iterations := by
    simp [share, Nat.mod_one]
  rw [slices, List.range_one, List.map_singleton, hshare]
  rfl

/-- The clocks of the two drivers show the same at corresponding points: when the run starts, at the
start and the end of each iteration, and when the run ends. -/
structure SameReadings (iterations : Nat) (program main client : Clock) : Prop where
  start : program.ahead 0 = main.ahead 0
  during : ∀ k < 2 * iterations, program.ahead (1 + k) = client.ahead k
  stop : program.ahead (1 + 2 * iterations) = main.ahead 1

/-- What a driver with one client comes to, beside what the sequential driver comes to: both make the
same calls on their one connection and succeed together; an error is that of the sequential driver, named
for the client, and a run is the same if the readings are. -/
structure RefinedBy (alone attempt : Attempt) (sameReadings : Prop) : Prop where
  calls : ∃ events, alone.connections = [events] ∧ attempt.connections = [events]
  succeeds : attempt.result.isOk = alone.result.isOk
  fails : ∀ cause, alone.result = .error cause → ∃ error, attempt.result = .error error ∧
    error.message = utf8 "client 0: " ++ cause.message
  run : sameReadings → ∀ run, alone.result = .ok run → attempt.result = .ok run

/-- The concurrent driver with one client names it in an error, and measures it by the program's
clock from the gate to the end. -/
theorem runConcurrent_one_spec (target : Target) (operation : Operation) (iterations : Nat)
    {network : Network} (hstart : network.failingAmong 1 = none) :
    let client := target.runClient operation ⟨0, iterations⟩ network.nextScript
    let attempt := (runConcurrent target 1 operation iterations network).1
    attempt.connections = [client.events] ∧
      (∀ cause, client.failure = some cause → attempt.result = .error (.numbered 0 cause)) ∧
      (client.failure = none → attempt.result = .ok (.ofExchanges operation iterations
        (network.clock.ahead 1 - network.clock.ahead 0) client.exchanges)) := by
  intro client attempt
  have hattempt : attempt = merge operation iterations
      (network.clock.ahead 1 - network.clock.ahead 0) [client] := by
    simp only [attempt, runConcurrent, hstart, slices_one, Network.nextScripts_one]
    rfl
  rw [hattempt]
  refine ⟨connections_merge _ _ _ _, fun cause hf => ?_, fun hf => ?_⟩
  · have hfirst : firstFailure [client] = some (.numbered 0 cause) := by
      simp only [firstFailure, List.zipIdx_singleton, List.findSome?_singleton, hf, Option.map_some]
    simp only [merge, hfirst]
  · have hfirst : firstFailure [client] = none :=
      firstFailure_eq_none_iff.mpr (List.forall_mem_singleton.mpr hf)
    simp only [merge, hfirst, List.flatMap_singleton]

/-- Facing the same server, the concurrent driver with one client comes to what the sequential one
does. -/
theorem refinedBy_runConcurrent_one (target : Target) (operation : Operation) (iterations : Nat)
    {alone network : Network} (hserver : alone.nextScript.SameServer network.nextScript)
    (hstart : network.failingAmong 1 = none) :
    RefinedBy (runSequential target operation iterations alone).1
      (runConcurrent target 1 operation iterations network).1
      (SameReadings iterations alone.clock network.clock network.nextScript.clock) := by
  obtain ⟨hfailed, hdone⟩ := runSequential_spec target operation iterations alone
  obtain ⟨hconnections, hfailed', hdone'⟩ :=
    runConcurrent_one_spec target operation iterations hstart
  have hevents := (madeOf_runSequential target operation iterations alone).connections
  have hsame := alone.sameServer_ownScript.trans hserver
  obtain ⟨hcalls, hends⟩ := hsame.runClient target operation ⟨0, iterations⟩
  rw [← hcalls] at hconnections
  cases hf : (target.runClient operation ⟨0, iterations⟩ alone.ownScript).failure with
  | some cause =>
    have halone := hfailed cause hf
    have hone := hfailed' cause (hends.symm.trans hf)
    refine ⟨⟨_, hevents, hconnections⟩, ?_, ?_, ?_⟩
    · rw [halone, hone]
      rfl
    · rw [halone, hone]
      rintro _ ⟨⟩
      have hname : utf8 "client " ++ Decimal.ofNat 0 ++ utf8 ": " = utf8 "client 0: " := by
        decide +kernel
      exact ⟨_, rfl, congrArg (· ++ cause.message) hname⟩
    · rw [halone]
      exact fun _ _ => nofun
  | none =>
    have halone := hdone hf
    have hone := hdone' (hends.symm.trans hf)
    refine ⟨⟨_, hevents, hconnections⟩, ?_, ?_, ?_⟩
    · rw [halone, hone]
      rfl
    · rw [halone]
      exact fun _ => nofun
    · intro hreadings run hrun
      have hclocks : ∀ k < 2 * iterations,
          alone.ownScript.clock.ahead k = network.nextScript.clock.ahead k := by
        intro k hk
        rw [← hreadings.during k hk, ← Clock.ahead_skip]
        rfl
      have hexchanges := hsame.exchanges target operation ⟨0, iterations⟩ hclocks
      rw [hone, ← hrun, halone, hreadings.start, hreadings.stop, hexchanges]

/-- The concurrent driver with one client refines the sequential driver. Facing the same server, on any
network where its one thread can be started, it makes the same calls and succeeds exactly when the
sequential driver does, with the same run if the clocks show the same at corresponding points, and else
with the same error behind the client's name. It does so in every order of its two threads. -/
theorem one_client_refines_sequential (target : Target) {clients : Int} (hclients : clients ≤ 1)
    (operation : Operation) {iterations : Nat} (hlimit : iterations ≤ Operation.maxIterations)
    {alone network : Network} (hserver : alone.nextScript.SameServer network.nextScript)
    (hstart : network.failingAmong 1 = none) :
    let sequential := (Driver.sequential.run target operation iterations alone).1
    let readings :=
      SameReadings iterations alone.clock network.clock network.nextScript.clock
    RefinedBy sequential ((withClients clients).run target operation iterations network).1 readings ∧
      StartGate.Returns (.ofNetwork target 1 operation iterations network) network.clock fun attempt =>
        RefinedBy sequential attempt readings := by
  intro sequential readings
  have hrefined : RefinedBy sequential (runConcurrent target 1 operation iterations network).1
      readings := by
    simp only [sequential, Driver.run, if_neg (Nat.not_lt.mpr hlimit)]
    exact refinedBy_runConcurrent_one target operation iterations hserver hstart
  constructor
  · rw [withClients_of_le_one hclients]
    simpa only [Driver.run, if_neg (Nat.not_lt.mpr hlimit)] using hrefined
  · exact StartGate.returns_of_runConcurrent hrefined

/-- Two iterations: one server answers both and the clocks show the same, and another resets the
connection before its second answer. -/
theorem one_client_refines_sequential_two_iterations :
    let pong := ReadOutcome.data (utf8 "+PONG\r\n")
    let alone : Peer → Network := fun peer => { scripts := [{ peer := peer }] }
    let network : Peer → Network := fun peer => {
      scripts := [{ peer := peer, clock := Clock.ofTicks [2000, 1000, 1000, 1000] }]
      clock := Clock.ofTicks [1000, 5000] }
    let sequential := fun peer => (Driver.sequential.run {} .ping 2 (alone peer)).1.result
    let concurrent := fun peer => ((withClients 0).run {} .ping 2 (network peer)).1.result
    (∃ run, sequential { reads := [pong, pong] } = .ok run ∧
      concurrent { reads := [pong, pong] } = .ok run) ∧
    ∃ cause error, sequential { reads := [pong, .fail .connectionReset] } = .error cause ∧
      concurrent { reads := [pong, .fail .connectionReset] } = .error error ∧
      cause.message = utf8 "PING iteration 1: recv() failed: Connection reset by peer" ∧
      error.message = utf8 "client 0: PING iteration 1: recv() failed: Connection reset by peer" := by
  intro pong alone network sequential concurrent
  have hrefined : ∀ peer, RefinedBy (Driver.sequential.run {} .ping 2 (alone peer)).1
      ((withClients 0).run {} .ping 2 (network peer)).1
      (SameReadings 2 (alone peer).clock (network peer).clock (network peer).nextScript.clock) :=
    fun peer => (@one_client_refines_sequential {} 0 (by decide) .ping 2 (by decide) (alone peer)
      (network peer) ⟨rfl, rfl, rfl⟩ rfl).1
  have hreadings : SameReadings 2 Clock.steady (Clock.ofTicks [1000, 5000])
      (Clock.ofTicks [2000, 1000, 1000, 1000]) := ⟨by decide, by decide, by decide⟩
  constructor
  · have hdone : (sequential { reads := [pong, pong] }).isOk = true := by decide +kernel
    have hsame := (hrefined { reads := [pong, pong] }).run hreadings
    cases hrun : sequential { reads := [pong, pong] } with
    | error cause => rw [hrun] at hdone; cases hdone
    | ok run => exact ⟨run, rfl, hsame run hrun⟩
  · have htext : (match sequential { reads := [pong, .fail .connectionReset] } with
        | .error cause => cause.message
        | .ok _ => []) = utf8 "PING iteration 1: recv() failed: Connection reset by peer" := by
      decide +kernel
    have hnamed := (hrefined { reads := [pong, .fail .connectionReset] }).fails
    cases hcause : sequential { reads := [pong, .fail .connectionReset] } with
    | ok run =>
      rw [hcause] at htext
      change [] = _ at htext
      exact absurd htext (by decide)
    | error cause =>
      rw [hcause] at htext
      change cause.message = _ at htext
      obtain ⟨error, herror, hmessage⟩ := hnamed cause hcause
      refine ⟨cause, error, rfl, herror, htext, ?_⟩
      rw [hmessage, htext]
      decide +kernel

end Driver

end RespLoad
