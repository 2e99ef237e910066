import RespLoad.Proofs.Driver.Slices
import RespLoad.Proofs.Driver.Merge
import RespLoad.Proofs.Driver.Interleaving

/-!
# The wire protocol of a run

Whatever becomes of a run, each of its connections belongs to one client and keeps to the requests
of that client's range, one request at a time. A run that succeeds has carried all of them through.
This holds of the clients one after the other and of every interleaving of them, at every moment.
The order of events of different connections is not spoken of.
-/
namespace RespLoad

/-- However the accepted bytes are cut, they read back as the requests, with nothing left over. -/
def ReadsBack (requests : List Command) (events : List Event) : Prop :=
  ∀ chunks, chunks.flatten = acceptedBytes events →
    Frame.receiveAll [] chunks =
      (requests.map fun request => ⟨.request request, request.encode.length⟩, [])

theorem Completes.readsBack {requests : List Command} {events : List Event}
    (h : Completes requests events) (hf : ∀ request ∈ requests, request.Fits) :
    ReadsBack requests events := by
  intro chunks hc
  rw [Frame.receiveAll_eq_takeAll chunks rfl, hc, List.nil_append, h.accepted]
  exact Frame.takeAll_encode hf

/-- The reader's bound on a length, for the arguments of the request that authenticates. -/
def Target.GreetingFits (target : Target) : Prop :=
  ∀ request ∈ target.greeting, ∀ argument ∈ request, argument.length ≤ Decimal.maxInt32

instance (target : Target) : Decidable target.GreetingFits :=
  inferInstanceAs (Decidable (∀ request ∈ target.greeting, ∀ argument ∈ request,
    argument.length ≤ Decimal.maxInt32))

theorem Target.fits_greeting {target : Target} (h : target.GreetingFits) :
    ∀ request ∈ target.greeting, request.Fits := by
  intro request hr
  refine ⟨?_, h request hr⟩
  unfold Target.greeting at hr
  split at hr
  · cases hr
  · rw [List.mem_singleton] at hr
    subst hr
    unfold Target.authCommand
    split
    · exact (by decide : 2 ≤ Decimal.maxInt32)
    · exact (by decide : 3 ≤ Decimal.maxInt32)

theorem Target.fits_requests {target : Target} (h : target.GreetingFits) (operation : Operation)
    {slice : Slice} (hs : slice.first + slice.count ≤ Operation.maxIterations) :
    ∀ request ∈ target.requests operation slice, request.Fits := by
  intro request hr
  rcases List.mem_append.mp hr with hg | hc
  · exact target.fits_greeting h request hg
  · exact operation.fits_commands hs request hc

namespace Network

theorem length_nextScripts (network : Network) (count : Nat) :
    (network.nextScripts count).length = count := by
  rw [nextScripts, List.length_append, List.length_take, List.length_replicate]
  omega

theorem nextScripts_one (network : Network) : network.nextScripts 1 = [network.nextScript] := by
  unfold nextScripts nextScript
  cases network.scripts with
  | nil => rfl
  | cons script more => simp

theorem lt_of_failingAmong {network : Network} {clients index : Nat}
    (h : network.failingAmong clients = some index) : index < clients :=
  List.mem_range.mp (List.mem_of_find?_eq_some h)

end Network

namespace Driver

/-- Each connection is that of one client and keeps to the requests of its range. -/
structure InTurn (target : Target) (operation : Operation) (slices : List Slice)
    (connections : List (List Event)) : Prop where
  belongs : connections.length ≤ slices.length
  inTurn : ∀ (k : Nat) (slice : Slice) (events : List Event), slices[k]? = some slice →
    connections[k]? = some events → SendsInTurn (target.requests operation slice) events

/-- Each client has a connection on which all requests of its range were carried through. -/
structure CarriedThrough (target : Target) (operation : Operation) (slices : List Slice)
    (connections : List (List Event)) : Prop where
  all : connections.length = slices.length
  completes : ∀ (k : Nat) (slice : Slice) (events : List Event), slices[k]? = some slice →
    connections[k]? = some events → Completes (target.requests operation slice) events
  readsBack : target.GreetingFits → ∀ (k : Nat) (slice : Slice) (events : List Event),
    slices[k]? = some slice → connections[k]? = some events →
      ReadsBack (target.requests operation slice) events

theorem CarriedThrough.of_completes {target : Target} {operation : Operation}
    {slices : List Slice} {connections : List (List Event)}
    (hl : connections.length = slices.length)
    (hlimit : ∀ slice ∈ slices, slice.first + slice.count ≤ Operation.maxIterations)
    (hc : ∀ (k : Nat) (slice : Slice) (events : List Event), slices[k]? = some slice →
      connections[k]? = some events → Completes (target.requests operation slice) events) :
    CarriedThrough target operation slices connections := by
  refine ⟨hl, hc, ?_⟩
  intro hg k slice events hs he
  exact (hc k slice events hs he).readsBack
    (target.fits_requests hg operation (hlimit slice (List.mem_of_getElem? hs)))

theorem of_getElem?_singleton {α β : Type} {p : α → β → Prop} {a : α} {b : β} (h : p a b) :
    ∀ (k : Nat) (x : α) (y : β), [a][k]? = some x → [b][k]? = some y → p x y := by
  intro k x y hx hy
  cases k with
  | zero => cases hx; cases hy; exact h
  | succ k => cases hx

theorem inTurn_singleton {target : Target} {operation : Operation} {slice : Slice}
    {events : List Event} (h : SendsInTurn (target.requests operation slice) events) :
    InTurn target operation [slice] [events] :=
  ⟨Nat.le_refl _, of_getElem?_singleton h⟩

theorem carriedThrough_singleton {target : Target} {operation : Operation} {slice : Slice}
    {events : List Event} (h : Completes (target.requests operation slice) events)
    (hlimit : slice.first + slice.count ≤ Operation.maxIterations) :
    CarriedThrough target operation [slice] [events] :=
  .of_completes rfl (List.forall_mem_singleton.mpr hlimit) (of_getElem?_singleton h)

theorem turns_runSequential (target : Target) (operation : Operation) {iterations : Nat}
    (network : Network) (hlimit : iterations ≤ Operation.maxIterations) :
    let attempt := (runSequential target operation iterations network).1
    InTurn target operation [⟨0, iterations⟩] attempt.connections ∧
      ∀ run, attempt.result = .ok run →
        CarriedThrough target operation [⟨0, iterations⟩] attempt.connections := by
  have hl : 0 + iterations ≤ Operation.maxIterations := by omega
  cases hd : (target.dial network.nextScript).result with
  | error cause =>
    simp only [runSequential, hd]
    have hs := sendsInTurn_leave target operation ⟨0, iterations⟩ network.nextScript
    exact ⟨inTurn_singleton hs, fun _ h => by cases h⟩
  | ok peer =>
    let clock := ((network.dropScripts 1).readClock).2.clock
    obtain ⟨hs, hc⟩ := turns_continue operation ⟨0, iterations⟩ hd clock
    simp only [runSequential, hd]
    split
    · exact ⟨inTurn_singleton hs, fun _ h => by cases h⟩
    · rename_i hn
      exact ⟨inTurn_singleton hs, fun _ _ => carriedThrough_singleton (hc hn) hl⟩

theorem inTurn_map {α : Type} {target : Target} {operation : Operation} {slices : List Slice}
    {items : List α} {calls : α → List Event} (hl : items.length ≤ slices.length)
    (h : ∀ (k : Nat) (slice : Slice) (item : α), slices[k]? = some slice →
      items[k]? = some item → SendsInTurn (target.requests operation slice) (calls item)) :
    InTurn target operation slices (items.map calls) := by
  refine ⟨by rwa [List.length_map], ?_⟩
  intro k slice events hs he
  rw [List.getElem?_map] at he
  obtain ⟨item, hi, rfl⟩ := Option.map_eq_some_iff.mp he
  exact h k slice item hs hi

/-- Clients that complete their ranges unless they fail have completed them when what they came to
was merged into a run. -/
theorem carriedThrough_merge {target : Target} {operation : Operation} {iterations : Nat}
    {elapsed : Int} {slices : List Slice} {clients : List ClientRun} {run : OperationRun}
    (h : (merge operation iterations elapsed clients).result = .ok run)
    (hl : clients.length = slices.length)
    (hlimit : ∀ slice ∈ slices, slice.first + slice.count ≤ Operation.maxIterations)
    (hc : ∀ (k : Nat) (slice : Slice) (client : ClientRun), slices[k]? = some slice →
      clients[k]? = some client → client.failure = none →
        Completes (target.requests operation slice) client.events) :
    CarriedThrough target operation slices
      (merge operation iterations elapsed clients).connections := by
  rw [connections_merge]
  apply CarriedThrough.of_completes (by rwa [List.length_map]) hlimit
  intro k slice events hs he
  rw [List.getElem?_map] at he
  obtain ⟨client, hk, rfl⟩ := Option.map_eq_some_iff.mp he
  exact hc k slice client hs hk ((run_of_merge h).1 client (List.mem_of_getElem? hk))

theorem end_le_of_mem_slices {iterations clients : Nat}
    (hlimit : iterations ≤ Operation.maxIterations) :
    ∀ slice ∈ slices iterations clients, slice.first + slice.count ≤ Operation.maxIterations := by
  intro slice hm
  obtain ⟨k, hk⟩ := List.getElem?_of_mem hm
  exact Nat.le_trans (end_le_of_slices hk) hlimit

theorem length_clientRuns (target : Target) (clients : Nat) (operation : Operation)
    (iterations : Nat) (network : Network) :
    (clientRuns target clients operation iterations network).length = clients := by
  rw [clientRuns, List.length_zipWith, length_slices, Network.length_nextScripts, Nat.min_self]

theorem turns_of_getElem? {target : Target} {operation : Operation} {iterations clients k : Nat}
    {network : Network} {slice : Slice} {client : ClientRun}
    (hs : (slices iterations clients)[k]? = some slice)
    (hk : (clientRuns target clients operation iterations network)[k]? = some client) :
    SendsInTurn (target.requests operation slice) client.events ∧
      (client.failure = none → Completes (target.requests operation slice) client.events) := by
  obtain ⟨slice', script, hs', _, rfl⟩ := List.getElem?_zipWith_eq_some.mp hk
  rw [hs, Option.some.injEq] at hs'
  rw [← hs']
  exact turns_runClient target operation slice script

theorem turns_runConcurrent (target : Target) (clients : Nat) (operation : Operation)
    {iterations : Nat} (network : Network) (hlimit : iterations ≤ Operation.maxIterations) :
    let attempt := (runConcurrent target clients operation iterations network).1
    InTurn target operation (slices iterations clients) attempt.connections ∧
      ∀ run, attempt.result = .ok run →
        CarriedThrough target operation (slices iterations clients) attempt.connections := by
  cases hf : network.failingAmong clients with
  | some index =>
    simp only [runConcurrent, hf]
    refine ⟨inTurn_map ?_ ?_, fun _ h => by cases h⟩
    · have hlt := Network.lt_of_failingAmong hf
      rw [List.length_map, Network.length_nextScripts, length_slices]
      omega
    · intro k slice client hs hk
      rw [List.getElem?_map] at hk
      obtain ⟨script, _, rfl⟩ := Option.map_eq_some_iff.mp hk
      exact sendsInTurn_leave target operation slice script
  | none =>
    have hl : (clientRuns target clients operation iterations network).length =
        (slices iterations clients).length := by
      rw [length_clientRuns, length_slices]
    simp only [runConcurrent, hf]
    constructor
    · rw [connections_merge]
      exact inTurn_map (Nat.le_of_eq hl) fun k slice client hs hk =>
        (turns_of_getElem? hs hk).1
    · intro run h
      exact carriedThrough_merge h hl (end_le_of_mem_slices hlimit) fun k slice client hs hk =>
        (turns_of_getElem? hs hk).2

theorem turns_run (driver : Driver) (target : Target) (operation : Operation) (iterations : Nat)
    (network : Network) :
    let attempt := (driver.run target operation iterations network).1
    InTurn target operation (driver.ranges iterations) attempt.connections ∧
      ∀ run, attempt.result = .ok run →
        CarriedThrough target operation (driver.ranges iterations) attempt.connections := by
  by_cases hlimit : Operation.maxIterations < iterations
  · simp only [Driver.run, if_pos hlimit]
    refine ⟨⟨Nat.zero_le _, fun k slice events hs he => by simp at he⟩, fun _ h => by cases h⟩
  · simp only [Driver.run, if_neg hlimit]
    cases driver with
    | sequential => exact turns_runSequential target operation network (Nat.le_of_not_lt hlimit)
    | concurrent others =>
      exact turns_runConcurrent target (others + 1) operation network (Nat.le_of_not_lt hlimit)

end Driver

namespace StartGate

theorem length_jobs (target : Target) (clients : Nat) (operation : Operation) (iterations : Nat)
    (network : Network) :
    (Setup.ofNetwork target clients operation iterations network).jobs.length = clients := by
  rw [Setup.ofNetwork, List.length_zipWith, Driver.length_slices, Network.length_nextScripts,
    Nat.min_self]

theorem exists_job {target : Target} {clients : Nat} {operation : Operation} {iterations : Nat}
    (network : Network) {k : Nat} {slice : Slice}
    (h : (Driver.slices iterations clients)[k]? = some slice) :
    ∃ script, (Setup.ofNetwork target clients operation iterations network).jobs[k]? =
      some ⟨target, operation, slice, script⟩ := by
  have hk : k < clients := by
    have hl := (List.getElem?_eq_some_iff.mp h).1
    rwa [Driver.length_slices] at hl
  have hn : k < (network.nextScripts clients).length := by
    rwa [Network.length_nextScripts]
  refine ⟨(network.nextScripts clients)[k], ?_⟩
  exact List.getElem?_zipWith_eq_some.mpr
    ⟨slice, _, h, List.getElem?_eq_getElem hn, rfl⟩

theorem sendsInTurn_outcome (job : Job) (cancelled : Bool) :
    SendsInTurn (job.target.requests job.operation job.slice)
      (job.outcome cancelled).events := by
  cases cancelled with
  | true => exact sendsInTurn_leave job.target job.operation job.slice job.script
  | false => exact (turns_runClient job.target job.operation job.slice job.script).1

section Reached

variable {target : Target} {clients : Nat} {operation : Operation} {iterations : Nat}
  {network : Network} {clock : Clock} {state : State}

theorem inTurn_of_reachable
    (h : Reachable (Setup.ofNetwork target clients operation iterations network) clock state) :
    Driver.InTurn target operation (Driver.slices iterations clients)
      (state.clients.map Thread.events) := by
  apply Driver.inTurn_map
  · have hs := (coherent_of_reachable h).started
    rwa [length_jobs, ← Driver.length_slices iterations clients] at hs
  · intro k slice thread hs ht
    obtain ⟨script, hj⟩ := exists_job network hs
    exact (sendsInTurn_outcome _ state.cancelled).upTo (precedes_of_reachable h ht hj).events

theorem carriedThrough_of_returned
    (h : Reachable (Setup.ofNetwork target clients operation iterations network) clock state)
    (hlimit : iterations ≤ Operation.maxIterations) {attempt : Attempt} {run : OperationRun}
    (hr : state.main = .returned attempt) (ho : attempt.result = .ok run) :
    Driver.CarriedThrough target operation (Driver.slices iterations clients)
      attempt.connections := by
  have hstage := (coherent_of_reachable h).stage
  simp only [AtStage, hr] at hstage
  obtain ⟨_, hended, ⟨hgo, hall, elapsed, rfl⟩ | ⟨_, _, rfl⟩⟩ := hstage
  · refine Driver.carriedThrough_merge ho ?_ (Driver.end_le_of_mem_slices hlimit) ?_
    · rw [State.runs, List.length_map, hall, length_jobs, Driver.length_slices]
    · intro k slice client hs hk hf
      rw [State.runs, List.getElem?_map] at hk
      obtain ⟨thread, ht, rfl⟩ := Option.map_eq_some_iff.mp hk
      obtain ⟨script, hj⟩ := exists_job network hs
      have he := List.all_eq_true.mp hended thread (List.mem_of_getElem? ht)
      have hresult : thread.result operation = target.runClient operation slice script := by
        have hcame := result_of_reachable h ht hj he
        rwa [hgo] at hcame
      have hdone := (turns_runClient target operation slice script).2
      rw [← hresult] at hdone
      exact hdone hf
  · cases ho

end Reached

end StartGate

/-- The wire protocol of a run. On every connection, at every moment, the accepted bytes are a start
of the greeting and the commands of the client's range, and a byte of a request is offered only when
all before it was accepted and each request before has brought one reply. After a run that succeeds
all was accepted and answered, and in any chunks it reads back as those requests. The third part
says the same of every state that some interleaving of the threads reaches. -/
theorem Driver.inTurn_run (driver : Driver) (target : Target) (operation : Operation)
    (iterations : Nat) (network : Network) :
    let attempt := (driver.run target operation iterations network).1
    let slices := driver.ranges iterations
    InTurn target operation slices attempt.connections ∧
    (∀ run, attempt.result = .ok run →
      CarriedThrough target operation slices attempt.connections) ∧
    ∀ (clients : Nat) (clock : Clock) (state : StartGate.State),
      iterations ≤ Operation.maxIterations →
      StartGate.Reachable (.ofNetwork target clients operation iterations network) clock state →
        InTurn target operation (Driver.slices iterations clients)
          (state.clients.map Thread.events) ∧
        ∀ returned run, state.main = .returned returned → returned.result = .ok run →
          CarriedThrough target operation (Driver.slices iterations clients)
            returned.connections := by
  intro attempt slices
  obtain ⟨hturns, hdone⟩ := turns_run driver target operation iterations network
  refine ⟨hturns, hdone, ?_⟩
  intro clients clock state hlimit h
  exact ⟨StartGate.inTurn_of_reachable h, fun returned run hr ho =>
    StartGate.carriedThrough_of_returned h hlimit hr ho⟩

/-- Two clients with a password and three SETs between them, where a send is cut short and two calls
are interrupted. The driver succeeds, its second client sends two requests, and the same clients as
threads, taking turns, reach a return that succeeds too. -/
theorem Driver.inTurn_run_two_clients :
    let target : Target := { password := utf8 "pw" }
    let accepted := ReadOutcome.data (utf8 "+OK\r\n")
    let network : Network := { scripts := [
      { peer := { sends := [.accept 5], reads := [accepted, accepted, accepted] } },
      { peer := { sends := [.fail .interrupted]
                  reads := [.fail .interrupted, accepted, accepted] } }] }
    let attempt := ((concurrent 1).run target .set 3 network).1
    let state := StartGate.follow (.ofNetwork target 2 .set 3 network) { clock := Clock.steady }
      (List.replicate 24 [.main, .client 1, .client 0]).flatten
    (∃ events, attempt.connections[1]? = some events ∧
      ReadsBack [[utf8 "AUTH", utf8 "pw"], [utf8 "SET", utf8 "key2", utf8 "value2"]] events) ∧
    ∃ returned, state.main = .returned returned ∧
      CarriedThrough target .set (slices 3 2) returned.connections := by
  intro target accepted network attempt state
  obtain ⟨_, hdone, hreached⟩ := inTurn_run (concurrent 1) target .set 3 network
  constructor
  · have hok : attempt.result.isOk = true := by decide +kernel
    cases hr : attempt.result with
    | error cause => rw [hr] at hok; cases hok
    | ok run =>
      have hcarried := hdone run hr
      have hl : 1 < attempt.connections.length := by rw [hcarried.all]; decide
      have hrequests : target.requests .set ⟨2, 1⟩ =
          [[utf8 "AUTH", utf8 "pw"], [utf8 "SET", utf8 "key2", utf8 "value2"]] := by
        decide +kernel
      have he := List.getElem?_eq_getElem hl
      exact ⟨_, he, hrequests ▸ hcarried.readsBack (by decide) 1 ⟨2, 1⟩ _ (by decide) he⟩
  · have hok : state.returned?.any (·.result.isOk) = true := by decide +kernel
    have hs : StartGate.Reachable (.ofNetwork target 2 .set 3 network) Clock.steady state :=
      StartGate.reachable_follow .start _
    have hcarried := (hreached 2 _ state (by decide) hs).2
    clear_value state
    obtain ⟨returned, run, hm, hr⟩ := StartGate.State.run_of_returned? hok
    exact ⟨returned, hm, hcarried returned run hm hr⟩

end RespLoad
