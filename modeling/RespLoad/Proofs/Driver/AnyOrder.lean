import RespLoad.Proofs.Driver.Merge
import RespLoad.Proofs.Driver.Termination
import RespLoad.Proofs.Driver.WireProtocol

/-!
# The outcome in any order

In whatever order the threads run, the run comes to an end, and it returns what the same clients come to
one after the other, times included. Only the order in which the calls of different clients are made is
left open, and with it the order of the log while they run.
-/
namespace RespLoad

namespace Network

theorem take_nextScripts (network : Network) {k clients : Nat} (h : k ≤ clients) :
    (network.nextScripts clients).take k = network.nextScripts k := by
  unfold nextScripts
  rw [List.take_append, List.take_take, List.take_replicate, List.length_take, Nat.min_eq_left h]
  congr 2
  omega

end Network

namespace StartGate

variable {setup : Setup} {clock : Clock} {state : State}

/-- What has become of the main thread's readings of the clock it was given. Unless it was cancelled, a
run lasts from the first of them to the second. -/
def Timed (setup : Setup) (clock : Clock) (state : State) : Prop :=
  match state.main with
  | .joining start => start = clock.read.1 ∧ state.clock = clock.read.2
  | .returned attempt => state.cancelled = false →
      attempt = Driver.merge setup.operation setup.iterations
        (clock.read.2.read.1 - clock.read.1) (state.runs setup)
  | _ => state.clock = clock

theorem timed_mainMove {after : State} (hc : Coherent setup state) (h : Timed setup clock state)
    (hm : MainMove setup state after) : Timed setup clock after := by
  have hstage := hc.stage
  cases hm with
  | start hs hj hf => simpa only [Timed, hs] using h
  | refuse hs hj hf => simpa only [Timed, hs] using h
  | gather hs hj => simpa only [Timed, hs] using h
  | release hs hr =>
    simp only [Timed, hs] at h
    subst h
    exact ⟨rfl, rfl⟩
  | cancel hs => simpa only [Timed, hs] using h
  | join hs he =>
    simp only [Timed, hs] at h
    obtain ⟨rfl, hclock⟩ := h
    intro hgo
    rw [hclock]
    rfl
  | abandon hs he =>
    simp only [AtStage, hs] at hstage
    intro hgo
    have hcancelled : state.cancelled = true := hstage.2.1
    rw [hcancelled] at hgo
    cases hgo

/-- The clients have no part in the main thread's clock, and none moves after the return. -/
theorem timed_clientMove (hc : Coherent setup state) (h : Timed setup clock state) {job : Job}
    {index counted : Nat} {thread moved : Thread} (ht : state.clients[index]? = some thread)
    (hm : ClientMove job state thread moved counted) :
    Timed setup clock { state with
      clients := state.clients.set index moved, ready := state.ready + counted } := by
  cases hs : state.main with
  | returned attempt => exact absurd hs (not_returned_of_clientMove hc.stage ht hm attempt)
  | _ => simpa only [Timed, hs] using h

theorem timed_of_reachable (h : Reachable setup clock state) : Timed setup clock state := by
  refine invariant_of_moves ?_ ?_ ?_ h
  · rfl
  · exact fun reached ht hm => timed_mainMove (coherent_of_reachable reached) ht hm
  · exact fun reached ht hk _ hm => timed_clientMove (coherent_of_reachable reached) ht hk hm

/-- When all threads have ended, each has come to what its client comes to alone. -/
theorem runs_of_ended (h : Reachable setup clock state)
    (hop : ∀ job ∈ setup.jobs, job.operation = setup.operation)
    (he : state.clients.all Thread.isEnded = true) :
    state.runs setup =
      (setup.jobs.take state.clients.length).map fun job => job.outcome state.cancelled := by
  apply List.ext_getElem?
  intro index
  rw [State.runs, List.getElem?_map, List.getElem?_map]
  by_cases hl : index < state.clients.length
  · have hj := List.getElem?_eq_getElem
      (Nat.lt_of_lt_of_le hl (coherent_of_reachable h).started)
    have ht := List.getElem?_eq_getElem hl
    have hended := List.all_eq_true.mp he _ (List.getElem_mem hl)
    have hresult := result_of_reachable h ht hj hended
    rw [hop _ (List.getElem_mem _)] at hresult
    rw [List.getElem?_take_of_lt hl, ht, hj, Option.map_some, Option.map_some, hresult]
  · have hn := Nat.le_of_not_lt hl
    rw [List.getElem?_eq_none hn, List.getElem?_take_eq_none hn]
    rfl

section OfNetwork

variable {target : Target} {clients : Nat} {operation : Operation} {iterations : Nat}
  {network : Network}

theorem operation_of_mem_jobs :
    ∀ job ∈ (Setup.ofNetwork target clients operation iterations network).jobs,
      job.operation = operation := by
  intro job hm
  obtain ⟨index, hj⟩ := List.getElem?_of_mem hm
  obtain ⟨slice, script, _, _, rfl⟩ := List.getElem?_zipWith_eq_some.mp hj
  rfl

theorem outcomes_jobs :
    (Setup.ofNetwork target clients operation iterations network).jobs.map
      (fun job => job.outcome false) =
        Driver.clientRuns target clients operation iterations network :=
  List.map_zipWith

/-- The clients that were started before a start that failed leave after dialling. -/
theorem outcomes_jobs_cancelled {k : Nat} (hk : k ≤ clients) :
    ((Setup.ofNetwork target clients operation iterations network).jobs.take k).map
      (fun job => job.outcome true) =
        (network.nextScripts k).map fun script => (target.dial script).leave := by
  rw [← network.take_nextScripts hk]
  apply List.ext_getElem?
  intro index
  rw [List.getElem?_map, List.getElem?_map]
  by_cases hl : index < k
  · have hslices : index < (Driver.slices iterations clients).length := by
      rw [Driver.length_slices]
      omega
    have hscripts : index < (network.nextScripts clients).length := by
      rw [Network.length_nextScripts]
      omega
    rw [List.getElem?_take_of_lt hl, List.getElem?_take_of_lt hl, Setup.ofNetwork,
      List.getElem?_zipWith, List.getElem?_eq_getElem hslices, List.getElem?_eq_getElem hscripts]
    rfl
  · rw [List.getElem?_take_eq_none (Nat.le_of_not_lt hl),
      List.getElem?_take_eq_none (Nat.le_of_not_lt hl)]
    rfl

/-- When all threads could be started, each client has come to what it comes to alone. -/
theorem runs_of_returned {attempt : Attempt}
    (h : Reachable (.ofNetwork target clients operation iterations network) clock state)
    (hstart : network.failingAmong clients = none) (hr : state.main = .returned attempt) :
    state.cancelled = false ∧
      state.runs (.ofNetwork target clients operation iterations network) =
        Driver.clientRuns target clients operation iterations network := by
  have hstage := (coherent_of_reachable h).stage
  simp only [AtStage, hr] at hstage
  obtain ⟨_, hended, ⟨hgo, hall, _⟩ | ⟨_, hfailing, _⟩⟩ := hstage
  · have hruns := runs_of_ended h operation_of_mem_jobs hended
    rw [hall, List.take_length, hgo, outcomes_jobs] at hruns
    exact ⟨hgo, hruns⟩
  · rw [Setup.ofNetwork, hstart] at hfailing
    cases hfailing

/-- A run that returns, in whatever order the threads ran, returns what the driver comes to with the
clients one after the other. -/
theorem attempt_of_returned {attempt : Attempt}
    (h : Reachable (.ofNetwork target clients operation iterations network) network.clock state)
    (hr : state.main = .returned attempt) :
    attempt = (Driver.runConcurrent target clients operation iterations network).1 := by
  cases hf : network.failingAmong clients with
  | none =>
    obtain ⟨hgo, hruns⟩ := runs_of_returned h hf hr
    have htimed := timed_of_reachable h
    simp only [Timed, hr] at htimed
    rw [htimed hgo, hruns, Driver.runConcurrent, hf]
    rfl
  | some k =>
    have hk := Network.lt_of_failingAmong hf
    have hjobs : k < (Setup.ofNetwork target clients operation iterations network).jobs.length := by
      rwa [length_jobs]
    have hstage := (coherent_of_reachable h).stage
    simp only [AtStage, hr] at hstage
    obtain ⟨hopen, hended, ⟨hgo, _⟩ | ⟨hcancelled, hlast, rfl⟩⟩ := hstage
    -- A gate that was opened for the run would have had all threads started.
    · rw [cancelled_of_failing h hf hjobs hopen] at hgo
      cases hgo
    · have hlen : state.clients.length = k := (Option.some.inj (hf.symm.trans hlast)).symm
      have hruns := runs_of_ended h operation_of_mem_jobs hended
      rw [hcancelled, hlen, outcomes_jobs_cancelled (Nat.le_of_lt hk)] at hruns
      rw [abandoned, hruns, Driver.runConcurrent, hf, List.length_map, Network.length_nextScripts]

/-- Every interleaving comes to an end, and what it returns has a property. -/
structure Returns (setup : Setup) (clock : Clock) (holds : Attempt → Prop) : Prop where
  ends : ∃ bound, ∀ schedule state, walk? setup { clock := clock } schedule = some state →
    schedule.length ≤ bound
  moves : ∀ state, Reachable setup clock state → (∀ attempt, state.main ≠ .returned attempt) →
    ∃ actor after, next? setup actor state = some after
  returned : ∀ state attempt, Reachable setup clock state → state.main = .returned attempt →
    holds attempt

theorem returns_of_runConcurrent {holds : Attempt → Prop}
    (h : holds (Driver.runConcurrent target clients operation iterations network).1) :
    Returns (.ofNetwork target clients operation iterations network) network.clock holds := by
  refine ⟨⟨State.left (.ofNetwork target clients operation iterations network)
    { clock := network.clock }, fun schedule state hw => ?_⟩, ?_, ?_⟩
  · have hlength := (left_of_walk? .start hw).2
    omega
  · exact fun _ reached going => exists_step_of_reachable reached going
  · exact fun _ _ reached hr => attempt_of_returned reached hr ▸ h

end OfNetwork

/-- The outcome of the concurrent driver does not depend on the order in which its threads run. No
interleaving goes on for ever, and while one has not returned some thread can make a step. What it
returns is what the driver comes to with the clients one after the other, and so is what each client
came to, put together in the order of the clients. A client that was connected has run its whole range
or all of it up to its own first failure. -/
theorem settled_in_any_order (target : Target) (others : Nat) (operation : Operation)
    {iterations : Nat} (network : Network) (hlimit : iterations ≤ Operation.maxIterations)
    (hstart : network.failingAmong (others + 1) = none) :
    let setup := Setup.ofNetwork target (others + 1) operation iterations network
    let runs := Driver.clientRuns target (others + 1) operation iterations network
    let attempt := ((Driver.concurrent others).run target operation iterations network).1
    (∃ bound, ∀ schedule state, walk? setup { clock := network.clock } schedule = some state →
      schedule.length ≤ bound) ∧
    (∀ state, Reachable setup network.clock state →
      ((∀ returned, state.main ≠ .returned returned) →
        ∃ actor after, next? setup actor state = some after) ∧
      ∀ returned, state.main = .returned returned →
        returned = attempt ∧ state.runs setup = runs) ∧
    Driver.PutTogether runs attempt ∧
    ∀ (k : Nat) (slice : Slice) (script : Script),
      (Driver.slices iterations (others + 1))[k]? = some slice →
      (network.nextScripts (others + 1))[k]? = some script →
        ∃ run, runs[k]? = some run ∧ run.DialsAndRuns target operation slice script := by
  intro setup runs attempt
  have hattempt : attempt = (Driver.runConcurrent target (others + 1) operation iterations
      network).1 := by
    simp only [attempt, Driver.run, if_neg (Nat.not_lt.mpr hlimit)]
  refine ⟨?_, ?_, ?_, ?_⟩
  · refine ⟨State.left setup { clock := network.clock }, fun schedule state hw => ?_⟩
    have hlength := (left_of_walk? .start hw).2
    omega
  · intro state h
    refine ⟨exists_step_of_reachable h, fun returned hr => ⟨?_, ?_⟩⟩
    · rw [hattempt]
      exact attempt_of_returned h hr
    · exact (runs_of_returned h hstart hr).2
  · rw [hattempt, Driver.runConcurrent, hstart]
    exact Driver.putTogether_merge operation iterations _ runs
  · intro k slice script hs hk
    have hrun : runs[k]? = some (target.runClient operation slice script) :=
      List.getElem?_zipWith_eq_some.mpr ⟨slice, script, hs, hk, rfl⟩
    exact ⟨_, hrun, dialsAndRuns_runClient target operation slice script⟩

/-- Three clients that move in the opposite order of their numbers. The second is refused and the third
fails in its first iteration; the run names the second, and the first has run its whole range. -/
theorem settled_in_any_order_three_clients :
    let pong := ReadOutcome.data (utf8 "+PONG\r\n")
    let network : Network := { scripts := [
      { peer := { reads := [pong, pong] } },
      { faults := { connect := some .connectionRefused } },
      { peer := { reads := [.fail .connectionReset] } }] }
    let setup := Setup.ofNetwork {} 3 .ping 4 network
    let state := follow setup { clock := network.clock }
      (List.replicate 18 [.client 2, .client 1, .client 0, .main]).flatten
    (∃ returned error, state.main = .returned returned ∧ returned.result = .error error ∧
      error.message = utf8
        "client 1: cannot connect to 127.0.0.1:6380: connect() failed: Connection refused") ∧
      ∃ run, (state.runs setup)[0]? = some run ∧ run.exchanges.map Exchange.index = [0, 1] := by
  intro pong network setup state
  have hstate : Reachable setup network.clock state := reachable_follow .start _
  obtain ⟨_, hreached, hmerged, hrange⟩ :=
    @settled_in_any_order {} 2 .ping 4 network (by decide) (by decide)
  have hended : state.returned?.isSome = true := by decide +kernel
  have hfailures : (Driver.clientRuns {} 3 .ping 4 network).map
      (fun run => run.failure.map ClientError.message) = [none,
        some (utf8 "cannot connect to 127.0.0.1:6380: connect() failed: Connection refused"),
        some (utf8 "PING iteration 3: recv() failed: Connection reset by peer")] := by
    decide +kernel
  obtain ⟨peer, hpeer⟩ : ∃ peer, (Target.dial {} { peer := { reads := [pong, pong] } }).result =
      .ok peer := ⟨{ reads := [pong, pong] }, rfl⟩
  obtain ⟨first, hfirst, hruns⟩ := hrange 0 ⟨0, 2⟩ _ rfl rfl
  obtain ⟨second, hsecond, _⟩ := hrange 1 ⟨2, 1⟩ _ rfl rfl
  have hreturned := (hreached state hstate).2
  -- What follows needs no evaluation any more.
  clear_value state
  generalize Driver.clientRuns {} 3 .ping 4 network = runs at *
  have hnone : first.failure = none := by
    have hmessage := congrArg (·[0]?) hfailures
    rw [List.getElem?_map, hfirst] at hmessage
    exact Option.map_eq_none_iff.mp (Option.some.inj hmessage)
  obtain ⟨cause, hcause, htext⟩ : ∃ cause, second.failure = some cause ∧ cause.message = utf8
      "cannot connect to 127.0.0.1:6380: connect() failed: Connection refused" := by
    have hmessage := congrArg (·[1]?) hfailures
    rw [List.getElem?_map, hsecond] at hmessage
    exact Option.map_eq_some_iff.mp (Option.some.inj hmessage)
  obtain ⟨returned, hm⟩ := State.main_of_returned? hended
  obtain ⟨rfl, hsame⟩ := hreturned returned hm
  constructor
  · have hearlier : ∀ earlier ∈ runs.take 1, earlier.failure = none := by
      cases runs with
      | nil => cases hfirst
      | cons head more =>
        cases hfirst
        exact List.forall_mem_singleton.mpr hnone
    obtain ⟨error, herror, hmessage⟩ :=
      hmerged.fails 1 second cause hsecond hcause hearlier
    refine ⟨_, error, hm, herror, ?_⟩
    rw [hmessage, htext]
    decide +kernel
  · have hrange := hruns.connected peer hpeer
    rcases hrange.upTo with ⟨_, hall⟩ | ⟨cause, hsome, _⟩
    · refine ⟨first, by rw [hsame, hfirst], ?_⟩
      rw [hrange.inOrder, hall]
      rfl
    · rw [hnone] at hsome
      cases hsome

end StartGate

end RespLoad
