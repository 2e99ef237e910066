import Mathlib.Data.Int.CardIntervalMod
import Mathlib.Data.Multiset.Range
import RespLoad.Proofs.Driver.WireProtocol

/-!
# The workload of a run

Which commands a run that succeeds has issued, read off the bytes that its sockets accepted. They are
those of all iterations, each once, however many clients share them. From this follows how often a key
is used. Which connection carries which command is left to the ranges of the clients.
-/
namespace RespLoad

/-- The key of a command that has one. -/
def Command.key? (command : Command) : Option Bytes := command[1]?

namespace Target

/-- What a server takes off a connection behind the greeting, and what is left of it. -/
def takenBehindGreeting (target : Target) (events : List Event) : List Taken × Bytes :=
  Frame.takeAll ((acceptedBytes events).drop (wire target.greeting).length)

/-- The benchmark commands that were issued on a connection, as a server reads them. -/
def issued (target : Target) (events : List Event) : List Command :=
  (target.takenBehindGreeting events).1.map (·.frame.arguments)

/-- The requests that a connection has carried through are read back behind the greeting. -/
theorem takenBehindGreeting_of_completes {target : Target} {operation : Operation} {slice : Slice}
    {events : List Event} (h : Completes (target.requests operation slice) events)
    (hlimit : slice.first + slice.count ≤ Operation.maxIterations) :
    target.takenBehindGreeting events =
      ((operation.commands slice).map fun command => ⟨.request command, command.encode.length⟩,
        []) := by
  have hstream : acceptedBytes events = wire target.greeting ++ wire (operation.commands slice) := by
    rw [h.accepted, requests, wire_append]
  rw [takenBehindGreeting, hstream, List.drop_left]
  exact Frame.takeAll_encode (operation.fits_commands hlimit)

theorem issued_of_completes {target : Target} {operation : Operation} {slice : Slice}
    {events : List Event} (h : Completes (target.requests operation slice) events)
    (hlimit : slice.first + slice.count ≤ Operation.maxIterations) :
    target.issued events = operation.commands slice := by
  rw [issued, takenBehindGreeting_of_completes h hlimit, List.map_map]
  exact List.map_id _

end Target

namespace Operation

/-- Ranges that lie one behind the other have the commands of one long range. -/
theorem flatMap_commands_consecutive (operation : Operation) (first : Nat) (counts : List Nat) :
    (Driver.consecutive first counts).flatMap operation.commands =
      operation.commands ⟨first, counts.sum⟩ := by
  induction counts generalizing first with
  | nil => rfl
  | cons count more ih =>
    rw [Driver.consecutive, List.flatMap_cons, ih, List.sum_cons, commands, commands, commands,
      ← List.map_append, List.range'_append_1]

theorem flatMap_commands_slices (operation : Operation) (iterations : Nat) {clients : Nat}
    (h : 0 < clients) :
    (Driver.slices iterations clients).flatMap operation.commands =
      (List.range iterations).map operation.command := by
  have hsum := Driver.sum_count_slices iterations h
  rw [Driver.slices, Driver.map_count_consecutive] at hsum
  rw [Driver.slices, flatMap_commands_consecutive, hsum, List.range_eq_range']
  rfl

theorem key?_command_cyclic {operation : Operation} (h : operation = .get ∨ operation = .del)
    (i : Nat) : (operation.command i).key? = some (Decimal.ofNat (i % keyCycle)) := by
  rcases h with rfl | rfl <;> rfl

end Operation

theorem Decimal.ofNat_injective : Function.Injective ofNat :=
  Function.LeftInverse.injective value_ofNat

namespace Driver

/-- What the connections of a run have issued together, as a whole and by keys. -/
structure Workload (target : Target) (operation : Operation) (iterations : Nat)
    (connections : List (List Event)) : Prop where
  greeted : ∀ events ∈ connections, wire target.greeting <+: acceptedBytes events
  whole : ∀ events ∈ connections, (target.takenBehindGreeting events).2 = []
  commands : Multiset.ofList (connections.flatMap target.issued) =
    (Multiset.range iterations).map operation.command
  ownKeys : operation = .set →
    ((connections.flatMap target.issued).map Command.key?).Nodup
  evenKeys : operation = .get ∨ operation = .del → ∀ k < Operation.keyCycle,
    ((connections.flatMap target.issued).map Command.key?).count (some (Decimal.ofNat k)) =
      iterations / Operation.keyCycle + if k < iterations % Operation.keyCycle then 1 else 0

/-- Iterations over any range have keys of their own if they write. -/
theorem nodup_keys_set (iterations : Nat) :
    (((List.range iterations).map Operation.set.command).map Command.key?).Nodup := by
  rw [List.map_map]
  refine List.Nodup.map (fun i j h => ?_) List.nodup_range
  exact Decimal.ofNat_injective (List.append_cancel_left (Option.some.inj h))

/-- Going round the keys uses each of them equally often, up to the last round. -/
theorem count_keys_cyclic {operation : Operation} (h : operation = .get ∨ operation = .del)
    (iterations : Nat) {k : Nat} (hk : k < Operation.keyCycle) :
    (((List.range iterations).map operation.command).map Command.key?).count
        (some (Decimal.ofNat k)) =
      iterations / Operation.keyCycle + if k < iterations % Operation.keyCycle then 1 else 0 := by
  have hpos : 0 < Operation.keyCycle := by decide
  have hcount := Nat.count_modEq_card iterations hpos k
  rw [Nat.mod_eq_of_lt hk] at hcount
  rw [← hcount, Nat.count, List.map_map, List.count, List.countP_map]
  refine List.countP_congr fun i _ => ?_
  simp only [Function.comp_apply, Operation.key?_command_cyclic h, beq_iff_eq, Option.some.injEq,
    Decimal.ofNat_injective.eq_iff, decide_eq_true_eq, Nat.ModEq, Nat.mod_eq_of_lt hk]

theorem CarriedThrough.workload {target : Target} {operation : Operation} {slices : List Slice}
    {iterations : Nat} {connections : List (List Event)}
    (h : CarriedThrough target operation slices connections)
    (hlimit : ∀ slice ∈ slices, slice.first + slice.count ≤ Operation.maxIterations)
    (hall : slices.flatMap operation.commands = (List.range iterations).map operation.command) :
    Workload target operation iterations connections := by
  have hissued : connections.map target.issued = slices.map operation.commands := by
    refine List.ext_getElem (by simp only [List.length_map, h.all]) fun k hk hk' => ?_
    rw [List.length_map] at hk hk'
    rw [List.getElem_map, List.getElem_map]
    exact Target.issued_of_completes
      (h.completes k _ _ (List.getElem?_eq_getElem hk') (List.getElem?_eq_getElem hk))
      (hlimit _ (List.getElem_mem hk'))
  have hcommands : connections.flatMap target.issued =
      (List.range iterations).map operation.command := by
    rw [List.flatMap_def, hissued, ← List.flatMap_def, hall]
  have hcompletes : ∀ events ∈ connections, ∃ slice ∈ slices,
      Completes (target.requests operation slice) events := by
    intro events he
    obtain ⟨k, hk, rfl⟩ := List.mem_iff_getElem.mp he
    have hk' : k < slices.length := h.all ▸ hk
    exact ⟨_, List.getElem_mem hk', h.completes k _ _ (List.getElem?_eq_getElem hk')
      (List.getElem?_eq_getElem hk)⟩
  constructor
  · intro events he
    obtain ⟨slice, _, hc⟩ := hcompletes events he
    rw [hc.accepted, Target.requests, wire_append]
    exact List.prefix_append _ _
  · intro events he
    obtain ⟨slice, hs, hc⟩ := hcompletes events he
    rw [Target.takenBehindGreeting_of_completes hc (hlimit slice hs)]
  · rw [hcommands, Multiset.range, Multiset.map_coe]
  · rintro rfl
    rw [hcommands]
    exact nodup_keys_set iterations
  · intro hcyclic k hk
    rw [hcommands]
    exact count_keys_cyclic hcyclic iterations hk

/-- The ranges of either driver are all iterations, in order. -/
theorem flatMap_commands_ranges (driver : Driver) (operation : Operation) (iterations : Nat) :
    (driver.ranges iterations).flatMap operation.commands =
      (List.range iterations).map operation.command := by
  cases driver with
  | sequential =>
    rw [ranges, List.flatMap_singleton, Operation.commands, List.range_eq_range']
  | concurrent others => exact operation.flatMap_commands_slices iterations (Nat.succ_pos others)

theorem end_le_of_mem_ranges (driver : Driver) {iterations : Nat}
    (hlimit : iterations ≤ Operation.maxIterations) :
    ∀ slice ∈ driver.ranges iterations, slice.first + slice.count ≤ Operation.maxIterations := by
  cases driver with
  | sequential =>
    refine List.forall_mem_singleton.mpr ?_
    simpa only [Nat.zero_add] using hlimit
  | concurrent others => exact end_le_of_mem_slices hlimit

theorem le_maxIterations_of_run {driver : Driver} {target : Target} {operation : Operation}
    {iterations : Nat} {network : Network} {run : OperationRun}
    (h : (driver.run target operation iterations network).1.result = .ok run) :
    iterations ≤ Operation.maxIterations := by
  by_contra hlimit
  simp only [Driver.run, if_pos (Nat.lt_of_not_le hlimit)] at h
  cases h

/-- How the iterations are shared out does not change the workload. A run that succeeds, with either
driver and any number of clients and in whatever order the threads of the concurrent one run, has issued
the command of each iteration once and no others. So all writes go to keys of their own, and reading and
deleting use each key of the cycle equally often, up to the last round. -/
theorem workload_run (driver : Driver) (target : Target) (operation : Operation)
    (iterations : Nat) (network : Network) :
    let attempt := (driver.run target operation iterations network).1
    (∀ run, attempt.result = .ok run →
      Workload target operation iterations attempt.connections) ∧
    ∀ (others : Nat) (clock : Clock) (state : StartGate.State) (returned : Attempt)
      (run : OperationRun), iterations ≤ Operation.maxIterations →
      StartGate.Reachable (.ofNetwork target (others + 1) operation iterations network) clock
        state →
      state.main = .returned returned → returned.result = .ok run →
        Workload target operation iterations returned.connections := by
  intro attempt
  constructor
  · intro run h
    have hlimit := le_maxIterations_of_run h
    exact ((turns_run driver target operation iterations network).2 run h).workload
      (driver.end_le_of_mem_ranges hlimit) (driver.flatMap_commands_ranges operation iterations)
  · intro others clock state returned run hlimit hstate hm h
    exact (StartGate.carriedThrough_of_returned hstate hlimit hm h).workload
      (end_le_of_mem_slices hlimit)
      (operation.flatMap_commands_slices iterations (Nat.succ_pos others))

/-- Three clients with a password share two writes, so that the last has none to send. A send is cut
short, and the second client is answered by an error. The keys that were written are the same for one
client alone, and for the three as threads that take turns. -/
theorem workload_run_three_clients :
    let target : Target := { password := utf8 "pw" }
    let accepted := ReadOutcome.data (utf8 "+OK\r\n")
    let network : Network := { scripts := [
      { peer := { sends := [.accept 5], reads := [accepted, accepted] } },
      { peer := { reads := [accepted, .data (utf8 "-ERR\r\n")] } },
      { peer := { reads := [accepted] } }] }
    let attempt := ((concurrent 2).run target .set 2 network).1
    let alone := (sequential.run target .set 2 network).1
    let state := StartGate.follow (.ofNetwork target 3 .set 2 network) { clock := network.clock }
      (List.replicate 24 [.main, .client 2, .client 1, .client 0]).flatten
    let written := [[utf8 "SET", utf8 "key0", utf8 "value0"], [utf8 "SET", utf8 "key1", utf8 "value1"]]
    (attempt.connections.map target.issued).map List.length = [1, 1, 0] ∧
    Multiset.ofList (attempt.connections.flatMap target.issued) = Multiset.ofList written ∧
    Multiset.ofList (alone.connections.flatMap target.issued) = Multiset.ofList written ∧
    ∃ returned, state.main = .returned returned ∧
      Multiset.ofList (returned.connections.flatMap target.issued) = Multiset.ofList written := by
  intro target accepted network attempt alone state written
  have hwritten : (Multiset.range 2).map Operation.set.command = Multiset.ofList written := by
    decide +kernel
  obtain ⟨hrun, hreached⟩ := workload_run (concurrent 2) target .set 2 network
  refine ⟨by decide +kernel, ?_, ?_, ?_⟩
  · have hok : attempt.result.isOk = true := by decide +kernel
    cases hr : attempt.result with
    | error cause => rw [hr] at hok; cases hok
    | ok run => exact (hrun run hr).commands.trans hwritten
  · have halone := (workload_run sequential target .set 2 network).1
    have hok : alone.result.isOk = true := by decide +kernel
    cases hr : alone.result with
    | error cause => rw [hr] at hok; cases hok
    | ok run => exact (halone run hr).commands.trans hwritten
  · have hok : state.returned?.any (·.result.isOk) = true := by decide +kernel
    have hstate : StartGate.Reachable (.ofNetwork target 3 .set 2 network) network.clock state :=
      StartGate.reachable_follow .start _
    have hworkload := hreached 2 network.clock state
    clear_value state
    obtain ⟨returned, run, hm, hr⟩ := StartGate.State.run_of_returned? hok
    exact ⟨returned, hm, (hworkload returned run (by decide) hstate hm hr).commands.trans hwritten⟩

end Driver

end RespLoad
