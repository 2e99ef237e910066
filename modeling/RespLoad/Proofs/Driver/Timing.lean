import RespLoad.Proofs.Driver.Readings
import RespLoad.Proofs.Number.DoubleSign

/-!
# The times that a run measures

When a run reads its clock, among the calls that it makes. The same program is written once more so that it
also leaves its moments, the readings and the calls in the order in which they happen
(`Operation.iterateTimed`, `Driver.runSequentialTimed`). In a run that succeeds each round trip lies between
two readings of its own, and all of them lie between a first and a last reading, behind the calls that
connect and authenticate. So by a clock that never goes back the round trips are spans of the whole that do
not overlap, however often a call was interrupted or a request sent in pieces.
-/
namespace RespLoad

/-- What a client does: it reads the clock, or makes a call. -/
inductive Moment where
  | reading (time : Int)
  | call (event : Event)
  deriving Repr, DecidableEq

namespace Moment

def event? : Moment → Option Event
  | .reading _ => none
  | .call event => some event

/-- Calls between two readings. -/
def trip (started ended : Int) (calls : List Event) : List Moment :=
  .reading started :: calls.map .call ++ [.reading ended]

theorem filterMap_event?_calls (calls : List Event) :
    (calls.map Moment.call).filterMap event? = calls := by
  rw [List.filterMap_map]
  exact List.filterMap_some

theorem filterMap_event?_trip (started ended : Int) (calls : List Event) :
    (trip started ended calls).filterMap event? = calls := by
  simp only [trip, List.cons_append, List.filterMap_cons, List.filterMap_append, List.filterMap_nil,
    filterMap_event?_calls, event?, List.append_nil]

end Moment

/-- Runs iterations, with the moments of what they do. -/
def Operation.iterateTimed (operation : Operation) :
    Nat → Nat → Peer → Clock → Iterations × List Moment
  | 0, _, _, clock => (⟨[], none, [], clock⟩, [])
  | count + 1, index, peer, clock =>
    let (started, clock) := clock.read
    let answer := peer.roundTrip (operation.command index)
    match answer.result with
    | .error cause =>
      (⟨[], some ⟨operation, index, cause⟩, answer.events, clock⟩,
        .reading started :: answer.events.map .call)
    | .ok reply =>
      let (ended, clock) := clock.read
      let (later, moments) := operation.iterateTimed count (index + 1) answer.peer clock
      (later.after ⟨index, started, ended, reply⟩ answer.events,
        Moment.trip started ended answer.events ++ moments)

section Iterating

variable (operation : Operation) (count index : Nat) (peer : Peer) (clock : Clock)

theorem iterateTimed_fst :
    (operation.iterateTimed count index peer clock).1 = operation.iterate count index peer clock := by
  induction count generalizing index peer clock with
  | zero => rfl
  | succ count ih =>
    cases hr : (peer.roundTrip (operation.command index)).result with
    | error cause => simp only [Operation.iterateTimed, Operation.iterate, hr]
    | ok reply => simp only [Operation.iterateTimed, Operation.iterate, hr, ih]

/-- The moments leave out no call. -/
theorem filterMap_iterateTimed :
    (operation.iterateTimed count index peer clock).2.filterMap Moment.event? =
      (operation.iterate count index peer clock).events := by
  induction count generalizing index peer clock with
  | zero => rfl
  | succ count ih =>
    cases hr : (peer.roundTrip (operation.command index)).result with
    | error cause =>
      simp only [Operation.iterateTimed, Operation.iterate, hr, List.filterMap_cons, Moment.event?,
        Moment.filterMap_event?_calls]
    | ok reply =>
      simp only [Operation.iterateTimed, Operation.iterate, hr, List.filterMap_append,
        Moment.filterMap_event?_trip, ih, Iterations.after]

end Iterating

/-- Iterations that were all carried through, by the readings of their clock: two for each, around the
round trip of its command and nothing else. -/
structure Operation.Timed (operation : Operation) (count index : Nat) (time : Nat → Int)
    (exchanges : List Exchange) (moments : List Moment) (calls : Nat → List Event)
    (replies : Nat → Bytes) : Prop where
  exchanges : exchanges =
    (List.range count).map fun i => ⟨index + i, time (2 * i), time (2 * i + 1), replies i⟩
  moments : moments =
    (List.range count).flatMap fun i => Moment.trip (time (2 * i)) (time (2 * i + 1)) (calls i)
  trips : ∀ i < count, RoundTrip (operation.command (index + i)) (calls i) (some (replies i))

/-- One exchange more at the front takes the first two readings. -/
theorem Operation.Timed.cons {operation : Operation} {count index : Nat} {time : Nat → Int}
    {exchanges : List Exchange} {moments : List Moment} {calls : Nat → List Event}
    {replies : Nat → Bytes}
    (h : operation.Timed count (index + 1) (fun k => time (2 + k)) exchanges moments calls replies)
    {trip : List Event} {reply : Bytes}
    (htrip : RoundTrip (operation.command index) trip (some reply)) :
    operation.Timed (count + 1) index time (⟨index, time 0, time 1, reply⟩ :: exchanges)
      (Moment.trip (time 0) (time 1) trip ++ moments)
      (fun | 0 => trip | i + 1 => calls i) (fun | 0 => reply | i + 1 => replies i) := by
  have hreading : ∀ i, 2 + 2 * i = 2 * (i + 1) := fun i => by omega
  have hindex : ∀ i, index + 1 + i = index + (i + 1) := fun i => by omega
  constructor
  · rw [h.exchanges, List.range_succ_eq_map, List.map_cons, List.map_map]
    simp only [Function.comp_def, ← Nat.add_assoc, hreading, hindex, Nat.succ_eq_add_one,
      Nat.mul_zero, Nat.zero_add, Nat.add_zero]
  · rw [h.moments, List.range_succ_eq_map, List.flatMap_cons, List.flatMap_map]
    simp only [← Nat.add_assoc, hreading, Nat.succ_eq_add_one, Nat.mul_zero, Nat.zero_add]
  · intro i hi
    cases i with
    | zero => exact htrip
    | succ i =>
      rw [← hindex]
      exact h.trips i (by omega)

theorem Iterates.timed {operation : Operation} {count index : Nat} {peer : Peer} {clock : Clock}
    {work : Iterations} (h : Iterates operation count index peer clock work)
    (hdone : work.failure = none) :
    ∃ calls replies, operation.Timed count index clock.ahead work.exchanges
      (operation.iterateTimed count index peer clock).2 calls replies := by
  induction h with
  | done index peer clock => exact ⟨fun _ => [], fun _ => [], rfl, rfl, fun i hi => by omega⟩
  | failed count clock hr => cases hdone
  | @exchanged count index peer clock reply later hr hl ih =>
    obtain ⟨calls, replies, hlater⟩ := ih hdone
    have htrip := roundTrip_roundTrip peer (operation.command index)
    rw [hr] at htrip
    have hahead : clock.read.2.read.2.ahead = fun k => clock.ahead (2 + k) :=
      funext fun k => clock.ahead_skip 2 k
    have hmoments : (operation.iterateTimed (count + 1) index peer clock).2 =
        Moment.trip (clock.ahead 0) (clock.ahead 1) (peer.roundTrip (operation.command index)).events ++
          (operation.iterateTimed count (index + 1) (peer.roundTrip (operation.command index)).peer
            clock.read.2.read.2).2 := by
      simp only [Operation.iterateTimed, hr]
      rfl
    rw [hahead] at hlater
    rw [hmoments]
    exact ⟨_, _, hlater.cons htrip⟩

namespace Clock

/-- The time between the two readings around a round trip, of which the first comes after the start. -/
def span (clock : Clock) (i : Nat) : Int := clock.ahead (2 * i + 2) - clock.ahead (2 * i + 1)

/-- The time from the first reading to the one behind so many round trips. -/
def whole (clock : Clock) (count : Nat) : Int := clock.ahead (2 * count + 1) - clock.ahead 0

variable {clock : Clock}

theorem span_nonneg (h : Monotone clock.ahead) (i : Nat) : 0 ≤ clock.span i := by
  have hforth : clock.ahead (2 * i + 1) ≤ clock.ahead (2 * i + 2) := h (by omega)
  unfold span
  omega

/-- Between the spans the clock goes on, so they come to no more than the whole. -/
theorem sum_span_le (h : Monotone clock.ahead) (count : Nat) :
    ((List.range count).map clock.span).sum ≤ clock.whole count := by
  induction count with
  | zero => exact Int.sub_nonneg_of_le (h (Nat.zero_le 1))
  | succ count ih =>
    have hgap : clock.ahead (2 * count + 2) ≤ clock.ahead (2 * (count + 1) + 1) := h (by omega)
    rw [List.range_succ, List.map_append, List.sum_append, List.map_singleton, List.sum_singleton]
    unfold span whole at *
    omega

theorem span_le (h : Monotone clock.ahead) {i count : Nat} (hi : i < count) :
    clock.span i ≤ clock.whole count := by
  have hstart : clock.ahead 0 ≤ clock.ahead (2 * i + 1) := h (by omega)
  have hend : clock.ahead (2 * i + 2) ≤ clock.ahead (2 * count + 1) := h (by omega)
  unfold span whole
  omega

end Clock

namespace Driver

/-- Runs an operation on one connection, with the moments of what it does. -/
def runSequentialTimed (target : Target) (operation : Operation) (iterations : Nat)
    (network : Network) : (Attempt × Network) × List Moment :=
  let dialled := target.dial network.nextScript
  let network := network.dropScripts 1
  match dialled.result with
  | .error cause =>
    let client := dialled.leave
    ((⟨.error (.client (.connection cause)), [client.events], client.log⟩, network),
      client.events.map .call)
  | .ok peer =>
    let (start, network) := network.readClock
    let (work, moments) := operation.iterateTimed iterations 0 peer network.clock
    let begun := dialled.events.map .call ++ .reading start :: moments
    let client := dialled.continueWith operation work
    let network := { network with clock := work.clock }
    match client.failure with
    | some cause =>
      ((⟨.error (.client cause), [client.events], client.log⟩, network), begun ++ [.call .close])
    | none =>
      let (stop, network) := network.readClock
      let run := OperationRun.ofExchanges operation iterations (stop - start) client.exchanges
      ((⟨.ok run, [client.events], client.log⟩, network), begun ++ [.reading stop, .call .close])

section Timed

variable (target : Target) (operation : Operation) (iterations : Nat) (network : Network)

theorem runSequentialTimed_fst :
    (runSequentialTimed target operation iterations network).1 =
      runSequential target operation iterations network := by
  cases hd : (target.dial network.nextScript).result with
  | error cause => simp only [runSequentialTimed, runSequential, hd]
  | ok peer =>
    simp only [runSequentialTimed, runSequential, hd, iterateTimed_fst]
    generalize operation.iterate iterations 0 peer _ = work
    cases hf : work.failure <;> simp only [Dialled.continueWith, hf, Option.map_none, Option.map_some]

/-- The calls of a run are those on its one connection. -/
theorem connections_runSequentialTimed :
    (runSequential target operation iterations network).1.connections =
      [(runSequentialTimed target operation iterations network).2.filterMap Moment.event?] := by
  cases hd : (target.dial network.nextScript).result with
  | error cause =>
    simp only [runSequentialTimed, runSequential, hd, Moment.filterMap_event?_calls]
  | ok peer =>
    have hcalls := filterMap_iterateTimed operation iterations 0 peer (network.clock.skip 1)
    simp only [runSequentialTimed, runSequential, hd, iterateTimed_fst, Network.readClock,
      Network.dropScripts, Clock.read_eq]
    generalize operation.iterate iterations 0 peer (network.clock.skip 1) = work at hcalls
    cases hf : work.failure <;>
      simp only [Dialled.continueWith, hf, Option.map_none, Option.map_some, List.filterMap_append,
        List.filterMap_cons, List.filterMap_nil, Moment.filterMap_event?_calls, hcalls, Moment.event?]

end Timed

/-- The moments of a run that carried all its iterations through: it dials, takes the first reading, makes
its round trips between two readings each, takes the last one and closes. -/
def timeline (dialling : List Event) (iterations : Nat) (time : Nat → Int)
    (calls : Nat → List Event) : List Moment :=
  dialling.map .call ++ .reading (time 0) ::
    ((List.range iterations).flatMap fun i =>
      Moment.trip (time (2 * i + 1)) (time (2 * i + 2)) (calls i)) ++
    [.reading (time (2 * iterations + 1)), .call .close]

theorem filterMap_timeline (dialling : List Event) (iterations : Nat) (time : Nat → Int)
    (calls : Nat → List Event) :
    (timeline dialling iterations time calls).filterMap Moment.event? =
      dialling ++ (List.range iterations).flatMap calls ++ [.close] := by
  simp only [timeline, List.filterMap_append, List.filterMap_cons, List.filterMap_nil,
    Moment.filterMap_event?_calls, List.filterMap_flatMap, Moment.filterMap_event?_trip, Moment.event?]

section Succeeding

variable {target : Target} {operation : Operation} {iterations : Nat} {network : Network}
  {run : OperationRun}

/-- Only a run that was connected and carried all its iterations through has a result. -/
theorem runSequential_ok
    (h : (runSequential target operation iterations network).1.result = .ok run) :
    ∃ peer, (target.dial network.nextScript).result = .ok peer ∧
      (operation.iterate iterations 0 peer (network.clock.skip 1)).failure = none := by
  cases hd : (target.dial network.nextScript).result with
  | error cause =>
    simp only [runSequential, hd] at h
    cases h
  | ok peer =>
    refine ⟨peer, rfl, ?_⟩
    simp only [runSequential, hd, Network.readClock, Network.dropScripts, Clock.read_eq] at h
    cases hf : (operation.iterate iterations 0 peer (network.clock.skip 1)).failure with
    | none => rfl
    | some cause =>
      simp only [Dialled.continueWith, hf, Option.map_some] at h
      cases h

/-- What a run that succeeds has in its samples and on its timeline, and how far it took the clock. -/
theorem runSequential_timed
    (h : (runSequential target operation iterations network).1.result = .ok run) :
    ∃ exchanges moments calls replies,
      operation.Timed iterations 0 (fun k => network.clock.ahead (1 + k)) exchanges moments calls replies ∧
      run = .ofExchanges operation iterations (network.clock.whole iterations) exchanges ∧
      (runSequential target operation iterations network).2.clock =
        network.clock.skip (2 * iterations + 2) ∧
      (runSequentialTimed target operation iterations network).2 =
        (target.dial network.nextScript).events.map .call ++
          .reading (network.clock.ahead 0) :: moments ++
          [.reading (network.clock.ahead (2 * iterations + 1)), .call .close] := by
  obtain ⟨peer, hd, hf⟩ := runSequential_ok h
  have hwork := iterates_iterate operation iterations 0 peer (network.clock.skip 1)
  obtain ⟨calls, replies, htimed⟩ := hwork.timed hf
  have hahead : (network.clock.skip 1).ahead = fun k => network.clock.ahead (1 + k) :=
    funext fun k => network.clock.ahead_skip 1 k
  rw [hahead] at htimed
  have hall : (operation.iterate iterations 0 peer (network.clock.skip 1)).exchanges.length =
      iterations := by
    rw [htimed.exchanges, List.length_map, List.length_range]
  have hclock : (operation.iterate iterations 0 peer (network.clock.skip 1)).clock =
      network.clock.skip (2 * iterations + 1) := by
    rw [hwork.clock_eq, Iterations.readings, hf, hall, Clock.skip_skip, Nat.add_comm]
    rfl
  have hstop : (network.clock.skip (2 * iterations + 1)).ahead 0 =
      network.clock.ahead (2 * iterations + 1) := network.clock.ahead_skip _ 0
  simp only [runSequential, runSequentialTimed, hd, iterateTimed_fst, Network.readClock,
    Network.dropScripts, Clock.read_eq, Dialled.continueWith, hf, Option.map_none, hclock, hstop,
    Clock.skip_skip] at h ⊢
  cases h
  exact ⟨_, _, calls, replies, htimed, rfl, trivial, rfl⟩

end Succeeding

/-- What a run says about time is so: it reads the clock twice for each iteration and twice more, its
samples are the times in microseconds between the two readings around each round trip, and its total is the
time in seconds from the first reading to the last. -/
structure MeasuresTime (target : Target) (operation : Operation) (iterations : Nat) (network : Network)
    (run : OperationRun) : Prop where
  readings : (Driver.sequential.run target operation iterations network).2.clock =
    network.clock.skip (2 * iterations + 2)
  samples : run.samples = (List.range iterations).map fun i =>
    Float.ofInt (network.clock.ahead (2 * i + 2) - network.clock.ahead (2 * i + 1)) / 1000
  total : run.measurement.totalSeconds = Binary64.ofFloat
    (Float.ofInt (network.clock.ahead (2 * iterations + 1) - network.clock.ahead 0) / 1000000000)
  /-- No sample is negative, neither in ticks nor as the double that is kept. -/
  nonneg : (∀ i, network.clock.ahead (2 * i + 1) ≤ network.clock.ahead (2 * i + 2)) ∧
    ∀ sample ∈ run.samples, 0 ≤ sample
  /-- In ticks the samples come to no more than the total. -/
  sum_le : ((List.range iterations).map fun i =>
      network.clock.ahead (2 * i + 2) - network.clock.ahead (2 * i + 1)).sum ≤
    network.clock.ahead (2 * iterations + 1) - network.clock.ahead 0
  /-- So no sample is more than the total. -/
  le_total : ∀ i < iterations, network.clock.ahead (2 * i + 2) - network.clock.ahead (2 * i + 1) ≤
    network.clock.ahead (2 * iterations + 1) - network.clock.ahead 0
  /-- Dialling comes before the first reading, and between the two readings of an iteration there is its
  round trip and nothing else. -/
  timeline : ∃ calls,
    runSequentialTimed target operation iterations network =
      (Driver.sequential.run target operation iterations network,
        timeline (target.dial network.nextScript).events iterations network.clock.ahead calls) ∧
    (∀ i < iterations, ∃ reply, RoundTrip (operation.command i) (calls i) (some reply)) ∧
    (Driver.sequential.run target operation iterations network).1.connections =
      [(target.dial network.nextScript).events ++ (List.range iterations).flatMap calls ++ [.close]]

/-- Measured time is consistent: by a clock that never goes back, a run that succeeds measures the time of
its round trips, which lie behind one another within its total, and of nothing else. -/
theorem sequential_measures_time {target : Target} {operation : Operation} {iterations : Nat}
    {network : Network} {run : OperationRun}
    (h : (Driver.sequential.run target operation iterations network).1.result = .ok run)
    (hclock : Monotone network.clock.ahead) :
    MeasuresTime target operation iterations network run := by
  have hlimit : ¬ Operation.maxIterations < iterations := by
    intro hmany
    simp only [Driver.run, if_pos hmany] at h
    cases h
  have hrun : Driver.sequential.run target operation iterations network =
      runSequential target operation iterations network := by
    simp only [Driver.run, if_neg hlimit]
  rw [hrun] at h
  obtain ⟨exchanges, moments, calls, replies, htimed, rfl, hreadings, hmoments⟩ :=
    runSequential_timed h
  have hsamples : (OperationRun.ofExchanges operation iterations (network.clock.whole iterations)
      exchanges).samples = (List.range iterations).map fun i => micros (network.clock.span i) := by
    rw [OperationRun.ofExchanges, htimed.exchanges, List.map_map]
    refine List.map_congr_left fun i _ => congrArg micros ?_
    show network.clock.ahead (1 + (2 * i + 1)) - network.clock.ahead (1 + 2 * i) = _
    rw [Clock.span, Nat.add_comm 1, Nat.add_comm 1]
  have htimeline : (runSequentialTimed target operation iterations network).2 =
      timeline (target.dial network.nextScript).events iterations network.clock.ahead calls := by
    rw [hmoments, htimed.moments]
    simp only [timeline, Nat.add_comm 1, Nat.add_assoc, Nat.reduceAdd]
  constructor
  · rw [hrun, hreadings]
  · exact hsamples
  · rfl
  · refine ⟨fun i => hclock (by omega), fun sample hsample => ?_⟩
    rw [hsamples] at hsample
    obtain ⟨i, -, rfl⟩ := List.mem_map.mp hsample
    exact zero_le_micros (Clock.span_nonneg hclock i)
  · exact Clock.sum_span_le hclock iterations
  · exact fun i hi => Clock.span_le hclock hi
  · refine ⟨calls, ?_, fun i hi => ?_, ?_⟩
    · rw [hrun, ← htimeline, ← runSequentialTimed_fst]
    · have htrip := htimed.trips i hi
      rw [Nat.zero_add] at htrip
      exact ⟨_, htrip⟩
    · rw [hrun, connections_runSequentialTimed, htimeline, filterMap_timeline]

/-- A run of two iterations that authenticates. A send and two reads are interrupted, and a request goes out
in two pieces. The clock stands still before the first round trip, and half of the whole passes outside of
both. -/
theorem sequential_measures_time_two_iterations :
    let target : Target := { password := utf8 "secret" }
    let network : Network := {
      scripts := [{ peer := {
        sends := [.accept 100, .accept 3, .fail .interrupted, .accept 11]
        reads := [.fail .interrupted, .data (utf8 "+OK\r\n"), .data (utf8 "+PONG\r\n"),
          .fail .interrupted, .data (utf8 "+PONG\r\n")] } }]
      clock := { reading := fun k => (k * k / 4 * 500 : Nat) } }
    ∃ run, (Driver.sequential.run target .ping 2 network).1.result = .ok run ∧
      Monotone network.clock.ahead ∧ MeasuresTime target .ping 2 network run ∧
      run.samples = [0.5, 1] ∧ run.measurement.totalSeconds = Binary64.ofFloat 0.000003 := by
  intro target network
  have hdone : (Driver.sequential.run target .ping 2 network).1.result.isOk = true := by
    decide +kernel
  have hclock : Monotone network.clock.ahead := by
    intro a b hab
    have hle : 0 + a ≤ 0 + b := by omega
    exact Int.ofNat_le.mpr (Nat.mul_le_mul_right 500 (Nat.div_le_div_right (Nat.mul_le_mul hle hle)))
  cases hrun : (Driver.sequential.run target .ping 2 network).1.result with
  | error cause => rw [hrun] at hdone; cases hdone
  | ok run =>
    have hmeasures := sequential_measures_time hrun hclock
    have hsamples : ((List.range 2).map fun i =>
        Float.ofInt (network.clock.ahead (2 * i + 2) - network.clock.ahead (2 * i + 1)) / 1000) =
          [0.5, 1] := by decide +kernel
    have htotal : Float.ofInt (network.clock.ahead (2 * 2 + 1) - network.clock.ahead 0) / 1000000000 =
        0.000003 := by decide +kernel
    exact ⟨run, rfl, hclock, hmeasures, hmeasures.samples.trans hsamples,
      hmeasures.total.trans (congrArg Binary64.ofFloat htotal)⟩

end Driver

end RespLoad
