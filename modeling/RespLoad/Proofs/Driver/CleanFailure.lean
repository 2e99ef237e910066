import RespLoad.Proofs.Driver.Authentication
import RespLoad.Proofs.Driver.InPlace
import RespLoad.Proofs.Driver.Readings

/-!
# What a failed run leaves behind

A run that fails, wherever it does, leaves the caller's variable as it was and no socket open, and what
comes after it is what a new driver would come to on the scripts, readings and thread starts that are left.
An iteration that fails is named by its index, and exactly those before it were carried through. What the
log says is not spoken of.
-/
namespace RespLoad

/-- The calls of iterations that broke off with an error: each before the one that is named sent its whole
command and read a reply, and that one did not. -/
structure Operation.BreaksOff (operation : Operation) (first count : Nat) (calls : List Event)
    (error : IterationError) : Prop where
  named : error.message = operation.name ++ utf8 " iteration " ++ Decimal.ofNat error.index ++
    utf8 ": " ++ error.cause.message
  within : error.index < first + count
  carriedThrough : ∃ (trips : List (List Event)) (last : List Event),
    calls = trips.flatten ++ last ∧ error.index = first + trips.length ∧
    (∀ (j : Nat) (trip : List Event), trips[j]? = some trip →
      ∃ reply, RoundTrip (operation.command (first + j)) trip (some reply)) ∧
    RoundTrip (operation.command error.index) last none

theorem Iterates.breaksOff {operation : Operation} {count index : Nat} {peer : Peer} {clock : Clock}
    {work : Iterations} (h : Iterates operation count index peer clock work)
    {error : IterationError} (he : work.failure = some error) :
    operation.BreaksOff index count work.events error := by
  induction h with
  | done index peer clock => cases he
  | @failed index peer cause count clock hr =>
    cases he
    have htrip := roundTrip_roundTrip peer (operation.command index)
    rw [hr] at htrip
    exact ⟨rfl, by simp, [], _, rfl, rfl, by simp, htrip⟩
  | @exchanged count index peer clock reply later hr hl ih =>
    obtain ⟨hnamed, hwithin, trips, last, hcalls, hindex, htrips, hlast⟩ := ih he
    have htrip := roundTrip_roundTrip peer (operation.command index)
    rw [hr] at htrip
    refine ⟨hnamed, by omega, (peer.roundTrip (operation.command index)).events :: trips, last,
      ?_, ?_, ?_, hlast⟩
    · rw [List.flatten_cons, List.append_assoc, ← hcalls]
      rfl
    · rw [List.length_cons]
      omega
    · intro j trip hj
      cases j with
      | zero =>
        cases hj
        exact ⟨reply, htrip⟩
      | succ j =>
        have hlater := htrips j trip hj
        rwa [Nat.add_assoc, Nat.add_comm 1] at hlater

theorem breaksOff_runClient {target : Target} {operation : Operation} {slice : Slice}
    {script : Script} {error : IterationError}
    (h : (target.runClient operation slice script).failure = some (.iteration error)) :
    ∃ calls, (target.runClient operation slice script).events =
        (target.dial script).events ++ calls ++ [.close] ∧
      operation.BreaksOff slice.first slice.count calls error := by
  cases hd : (target.dial script).result with
  | error cause =>
    rw [runClient_of_error hd] at h
    simp only [Dialled.leave, hd] at h
    cases h
  | ok peer =>
    rw [runClient_of_ok hd] at h ⊢
    obtain ⟨failure, hf, he⟩ := Option.map_eq_some_iff.mp h
    cases he
    exact ⟨_, rfl, (iterates_iterate operation slice.count slice.first peer script.clock).breaksOff hf⟩

/-- A connection that was used and then closed leaves no socket. -/
theorem Target.leavesNoSocket_of_connected {target : Target} {script : Script} {peer : Peer}
    (hd : (target.dial script).result = .ok peer) {calls : List Event}
    (h : ∀ event ∈ calls, event.usesSocket = true) :
    LeavesNoSocket ((target.dial script).events ++ calls ++ [.close]) := by
  have hdials := dials_dial target script
  have htalk := usesSocket_greet target script
  generalize target.dial script = dialled at hd hdials
  cases hdials with
  | connected hc hg log =>
    rw [hg] at htalk
    have hall := List.forall_mem_append.mpr
      ⟨List.forall_mem_append.mpr ⟨usesSocket_of_prepares hc, htalk⟩, h⟩
    exact leavesNoSocket_dropped hall
  | _ => cases hd

theorem Dialled.GoesOn.leavesNoSocket {target : Target} {script : Script} {operation : Operation}
    {client : ClientRun} (h : (target.dial script).GoesOn operation client) :
    LeavesNoSocket client.events := by
  cases h with
  | leaves =>
    cases hd : (target.dial script).result with
    | error cause =>
      have hclosed := Target.leavesNoSocket_dial hd
      simpa only [Dialled.leave, hd] using hclosed
    | ok peer =>
      have hclosed := Target.leavesNoSocket_of_connected hd (List.forall_mem_nil _)
      rw [List.append_nil] at hclosed
      simpa only [Dialled.leave, hd] using hclosed
  | @works peer hd slice clock =>
    exact Target.leavesNoSocket_of_connected hd
      (iterates_iterate operation slice.count slice.first peer clock).usesSocket

namespace Network

/-- What is left of a network after a call: the scripts behind those of its connections, and the readings
and thread starts behind those that it took. -/
def Remains (network left : Network) (connections : Nat) : Prop :=
  ∃ readings starts, left =
    { network.dropScripts connections with
      clock := network.clock.skip readings
      threadStarts := network.threadStarts + starts }

end Network

namespace Driver

/-- A call has closed what it opened, and later calls come to what they would come to on a network that is
met for the first time, with what is left of this one ahead. -/
structure LeavesClean (driver : Driver) (target : Target) (network : Network) (attempt : Attempt)
    (left : Network) : Prop where
  closed : ∀ events ∈ attempt.connections, LeavesNoSocket events
  remains : network.Remains left attempt.connections.length
  later : ∀ calls, (driver.runEach target calls left).1 = (driver.runEach target calls left.afresh).1

section Run

variable (driver : Driver) (target : Target) (operation : Operation) (iterations : Nat)
  (network : Network)

theorem closed_run : ∀ events ∈ (driver.run target operation iterations network).1.connections,
    LeavesNoSocket events := by
  intro events he
  rw [(madeOf_run target operation iterations network driver).connections] at he
  obtain ⟨client, hm, rfl⟩ := List.mem_map.mp he
  obtain ⟨script, -, hclient⟩ :=
    exists_of_mem_forall₂ (forall₂_workers target operation iterations network driver) hm
  exact hclient.leavesNoSocket

theorem remains_run :
    network.Remains (driver.run target operation iterations network).2
      (driver.run target operation iterations network).1.connections.length := by
  by_cases hlimit : Operation.maxIterations < iterations
  · simp only [Driver.run, if_pos hlimit]
    exact ⟨0, 0, rfl⟩
  simp only [Driver.run, if_neg hlimit]
  cases driver with
  | sequential =>
    cases hd : (target.dial network.nextScript).result with
    | error cause =>
      simp only [runSequential, hd]
      exact ⟨0, 0, rfl⟩
    | ok peer =>
      have hclock :=
        (iterates_iterate operation iterations 0 peer (network.clock.skip 1)).clock_eq
      rw [Clock.skip_skip] at hclock
      simp only [runSequential, hd, Network.readClock, Network.dropScripts, Clock.read_eq, hclock,
        Clock.skip_skip]
      split
      · exact ⟨_, 0, rfl⟩
      · exact ⟨_, 0, rfl⟩
  | concurrent others =>
    cases hf : network.failingAmong (others + 1) with
    | some index =>
      simp only [runConcurrent, hf, List.length_map, Network.length_nextScripts]
      exact ⟨0, _, rfl⟩
    | none =>
      have hlength := length_clientRuns target (others + 1) operation iterations network
      simp only [runConcurrent, hf, connections_merge, List.length_map]
      rw [clientRuns] at hlength
      rw [hlength]
      exact ⟨2, _, rfl⟩

theorem leavesClean_run :
    LeavesClean driver target network (driver.run target operation iterations network).1
      (driver.run target operation iterations network).2 where
  closed := closed_run driver target operation iterations network
  remains := remains_run driver target operation iterations network
  later := runEach_sameAhead (Network.sameAhead_afresh _) driver target

end Run

end Driver

namespace StartGate

/-- How many readings of its clock the main thread has taken. -/
def State.readings (state : State) : Nat :=
  match state.main with
  | .joining _ => 1
  | .returned _ => if state.cancelled then 0 else 2
  | _ => 0

theorem clock_of_reachable {setup : Setup} {clock : Clock} {state : State}
    (h : Reachable setup clock state) : state.clock = clock.skip state.readings := by
  refine @invariant_of_moves setup clock (fun state => state.clock = clock.skip state.readings)
    ?_ ?_ ?_ state h
  · rfl
  · intro state after reached hclock hm
    have hstage := (coherent_of_reachable reached).stage
    cases hm with
    | start hs hj hf => simpa only [State.readings, hs] using hclock
    | refuse hs hj hf => simpa only [State.readings, hs] using hclock
    | gather hs hj => simpa only [State.readings, hs] using hclock
    | cancel hs => simpa only [State.readings, hs] using hclock
    | release hs hr =>
      simp only [State.readings, hs] at hclock
      simp only [State.readings, hclock]
      rfl
    | join hs he =>
      simp only [AtStage, hs] at hstage
      simp only [State.readings, hs] at hclock
      simp only [State.readings, hclock, hstage.2.1]
      rfl
    | abandon hs he =>
      simp only [AtStage, hs] at hstage
      simp only [State.readings, hs] at hclock
      simp only [State.readings, hclock, hstage.2.1]
      rfl
  · intro state index counted thread moved job reached hclock ht hj hm
    exact hclock

/-- A run that returns leaves the clock where the driver leaves it with the clients one after the other. -/
theorem clock_of_returned {target : Target} {clients : Nat} {operation : Operation}
    {iterations : Nat} {network : Network} {state : State} {attempt : Attempt}
    (h : Reachable (.ofNetwork target clients operation iterations network) network.clock state)
    (hr : state.main = .returned attempt) :
    state.clock = (Driver.runConcurrent target clients operation iterations network).2.clock := by
  have hclock := clock_of_reachable h
  simp only [State.readings, hr] at hclock
  cases hf : network.failingAmong clients with
  | none =>
    have hgo := (runs_of_returned h hf hr).1
    rw [hclock, hgo, Driver.runConcurrent, hf]
    rfl
  | some k =>
    have hjobs : k < (Setup.ofNetwork target clients operation iterations network).jobs.length := by
      rw [length_jobs]
      exact Network.lt_of_failingAmong hf
    have hstage := (coherent_of_reachable h).stage
    simp only [AtStage, hr] at hstage
    rw [hclock, cancelled_of_failing h hf hjobs hstage.1, Driver.runConcurrent, hf]
    rfl

end StartGate

namespace Driver

/-- The sequential driver fails in an iteration exactly when its client does, and shows the client's
calls. -/
theorem breaksOff_runSequential {target : Target} {operation : Operation} {iterations : Nat}
    {network : Network} {error : IterationError}
    (h : (runSequential target operation iterations network).1.result =
      .error (.client (.iteration error))) :
    ∃ calls, (runSequential target operation iterations network).1.connections =
        [(target.dial network.nextScript).events ++ calls ++ [.close]] ∧
      operation.BreaksOff 0 iterations calls error := by
  obtain ⟨hfailed, hdone⟩ := runSequential_spec target operation iterations network
  rw [(madeOf_runSequential target operation iterations network).connections, List.map_singleton,
    ← network.sameServer_ownScript.dial target]
  cases hf : (target.runClient operation ⟨0, iterations⟩ network.ownScript).failure with
  | none =>
    rw [hdone hf] at h
    cases h
  | some cause =>
    rw [hfailed cause hf] at h
    cases h
    obtain ⟨calls, hevents, hbroken⟩ := breaksOff_runClient hf
    exact ⟨calls, by rw [hevents], hbroken⟩

/-- In whatever order its threads run, the concurrent driver returns the attempt of its clients one after
the other, with every thread ended and as many readings taken. -/
theorem returns_concurrent (target : Target) (others : Nat) (operation : Operation) {iterations : Nat}
    (network : Network) (hlimit : iterations ≤ Operation.maxIterations) :
    let setup := StartGate.Setup.ofNetwork target (others + 1) operation iterations network
    let call := (concurrent others).run target operation iterations network
    StartGate.Returns setup network.clock (· = call.1) ∧
      ∀ state returned, StartGate.Reachable setup network.clock state →
        state.main = .returned returned →
          state.clients.all Thread.isEnded = true ∧ state.clock = call.2.clock := by
  intro setup call
  simp only [call, Driver.run, if_neg (Nat.not_lt.mpr hlimit)]
  refine ⟨StartGate.returns_of_runConcurrent rfl, fun state returned hreached hr => ?_⟩
  have hstage := (StartGate.coherent_of_reachable hreached).stage
  simp only [StartGate.AtStage, hr] at hstage
  exact ⟨hstage.2.1, StartGate.clock_of_returned hreached hr⟩

end Driver

end RespLoad
