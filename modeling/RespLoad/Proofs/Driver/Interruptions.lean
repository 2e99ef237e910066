import Mathlib.Data.List.Forall2
import RespLoad.Proofs.Connection.Interruptions
import RespLoad.Proofs.Driver.AnyOrder

/-!
# Interruptions in a run

On networks whose scripts are alike a driver comes to the same, with its clients one after the other and
in every interleaving of them, and leaves networks that are alike. The samples, the tallies, the errors
and the log are equal, and each connection carries the same bytes and replies. A retry reads no clock, so
this holds of the times as well.
-/
namespace RespLoad

/-- Two ranges of iterations came to the same. -/
structure Iterations.Alike (a b : Iterations) : Prop where
  exchanges : a.exchanges = b.exchanges
  failure : a.failure = b.failure
  traffic : traffic a.events = traffic b.events
  clock : a.clock = b.clock

theorem Operation.iterate_alike (operation : Operation) (count index : Nat) {a b : Peer}
    (h : a.Alike b) (clock : Clock) :
    (operation.iterate count index a clock).Alike (operation.iterate count index b clock) := by
  induction count generalizing index a b clock with
  | zero => exact ⟨rfl, rfl, rfl, rfl⟩
  | succ count ih =>
    have htrip := h.roundTrip (operation.command index)
    cases hr : (b.roundTrip (operation.command index)).result with
    | error cause =>
      simp only [iterate, htrip.result.trans hr, hr]
      exact ⟨rfl, rfl, htrip.traffic, rfl⟩
    | ok reply =>
      simp only [iterate, htrip.result.trans hr, hr]
      have hlater := ih (index + 1) htrip.peer clock.read.2.read.2
      exact ⟨congrArg (_ :: ·) hlater.exchanges, hlater.failure,
        traffic_append htrip.traffic hlater.traffic, hlater.clock⟩

/-- Two clients came to the same. -/
structure ClientRun.Alike (a b : ClientRun) : Prop where
  failure : a.failure = b.failure
  exchanges : a.exchanges = b.exchanges
  traffic : traffic a.events = traffic b.events
  log : a.log = b.log

namespace Dialled.Alike

variable {a b : Dialled}

theorem leave (h : a.Alike b) : a.leave.Alike b.leave := by
  obtain ⟨result, events, log⟩ := a
  obtain ⟨result', events', log'⟩ := b
  obtain ⟨hresult, htraffic, hlog⟩ := h
  cases hresult with
  | refused cause => exact ⟨rfl, rfl, htraffic, hlog⟩
  | opened hpeer => exact ⟨rfl, rfl, traffic_append htraffic rfl, hlog⟩

theorem continueWith (h : a.Alike b) (operation : Operation) {work work' : Iterations}
    (hwork : work.Alike work') :
    (a.continueWith operation work).Alike (b.continueWith operation work') := by
  refine ⟨congrArg (Option.map ClientError.iteration) hwork.failure, hwork.exchanges, ?_, ?_⟩
  · exact traffic_append (traffic_append h.traffic hwork.traffic) rfl
  · simp only [Dialled.continueWith, h.log, hwork.exchanges]

end Dialled.Alike

theorem Target.runClient_alike (target : Target) (operation : Operation) (slice : Slice)
    {a b : Script} (h : a.Alike b) :
    (target.runClient operation slice a).Alike (target.runClient operation slice b) := by
  have hdial := target.dial_alike h
  have hresult := hdial.result
  generalize ha : (target.dial a).result = opened at hresult
  generalize hb : (target.dial b).result = opened' at hresult
  cases hresult with
  | refused cause =>
    rw [runClient_of_error ha, runClient_of_error hb]
    exact hdial.leave
  | opened hpeer =>
    rw [runClient_of_ok ha, runClient_of_ok hb, h.clock]
    exact hdial.continueWith operation (operation.iterate_alike _ _ hpeer _)

/-- Two attempts came to the same, and each connection of one carried what its counterpart did. -/
structure Attempt.Alike (a b : Attempt) : Prop where
  result : a.result = b.result
  traffic : a.connections.map traffic = b.connections.map traffic
  log : a.log = b.log

/-- The networks differ in the scripts that lie ahead only, and these are alike. -/
structure Network.Alike (a b : Network) : Prop where
  scripts : List.Forall₂ Script.Alike a.scripts b.scripts
  clock : a.clock = b.clock
  threadStarts : a.threadStarts = b.threadStarts
  startFails : a.startFails = b.startFails

namespace Network.Alike

variable {a b : Network}

theorem nextScript (h : a.Alike b) : a.nextScript.Alike b.nextScript := by
  obtain ⟨scripts, clock, threadStarts, startFails⟩ := a
  obtain ⟨scripts', clock', threadStarts', startFails'⟩ := b
  obtain ⟨hscripts, _, _, _⟩ := h
  cases hscripts with
  | nil => exact .refl _
  | cons hfirst _ => exact hfirst

theorem nextScripts (h : a.Alike b) (count : Nat) :
    List.Forall₂ Script.Alike (a.nextScripts count) (b.nextScripts count) := by
  unfold Network.nextScripts
  rw [h.scripts.length_eq]
  exact List.rel_append (List.forall₂_take count h.scripts)
    (List.forall₂_same.mpr fun script _ => .refl script)

theorem dropScripts (h : a.Alike b) (count : Nat) :
    (a.dropScripts count).Alike (b.dropScripts count) :=
  ⟨List.forall₂_drop count h.scripts, h.clock, h.threadStarts, h.startFails⟩

theorem withClock (h : a.Alike b) (clock : Clock) :
    Network.Alike { a with clock := clock } { b with clock := clock } :=
  ⟨h.scripts, rfl, h.threadStarts, h.startFails⟩

theorem countStarts (h : a.Alike b) (count : Nat) :
    (a.countStarts count).Alike (b.countStarts count) :=
  ⟨h.scripts, h.clock, congrArg (· + count) h.threadStarts, h.startFails⟩

theorem failingAmong (h : a.Alike b) (count : Nat) :
    a.failingAmong count = b.failingAmong count := by
  have hstarts : a.startFailsAhead = b.startFailsAhead := by
    unfold startFailsAhead
    rw [h.startFails, h.threadStarts]
  rw [Network.failingAmong, hstarts, Network.failingAmong]

end Network.Alike

/-- Two runs came to the same and leave networks that are alike. -/
structure RunAlike (a b : Attempt × Network) : Prop where
  attempt : a.1.Alike b.1
  network : a.2.Alike b.2

namespace Driver

variable {a b : Network}

theorem runSequential_alike (target : Target) (operation : Operation) (iterations : Nat)
    (h : a.Alike b) :
    RunAlike (runSequential target operation iterations a)
      (runSequential target operation iterations b) := by
  have hdial := target.dial_alike h.nextScript
  have hresult := hdial.result
  generalize ha : (target.dial a.nextScript).result = opened at hresult
  generalize hb : (target.dial b.nextScript).result = opened' at hresult
  have hleft := h.dropScripts 1
  cases hresult with
  | refused cause =>
    simp only [runSequential, ha, hb]
    exact ⟨⟨rfl, congrArg ([·]) hdial.leave.traffic, hdial.leave.log⟩, hleft⟩
  | opened hpeer =>
    have hwork := operation.iterate_alike iterations 0 hpeer b.clock.read.2
    have hclient := hdial.continueWith operation hwork
    have htraffic := congrArg ([·]) hclient.traffic
    simp only [runSequential, ha, hb, Network.readClock, Network.dropScripts, h.clock]
    rw [hclient.failure, hwork.clock, hclient.log, hclient.exchanges]
    split
    · exact ⟨⟨rfl, htraffic, rfl⟩, hleft.withClock _⟩
    · exact ⟨⟨rfl, htraffic, rfl⟩, hleft.withClock _⟩

section Clients

variable {clients others : List ClientRun}

theorem traffic_of_alike (h : List.Forall₂ ClientRun.Alike clients others) :
    (clients.map ClientRun.events).map traffic = (others.map ClientRun.events).map traffic := by
  rw [List.map_map, List.map_map]
  exact map_eq_of_forall₂ (fun _ _ hclient => hclient.traffic) h

theorem merge_alike (operation : Operation) (iterations : Nat) (elapsed : Int)
    (h : List.Forall₂ ClientRun.Alike clients others) :
    (merge operation iterations elapsed clients).Alike
      (merge operation iterations elapsed others) := by
  obtain ⟨hresult, hlog⟩ := merge_congr operation iterations elapsed
    (map_eq_of_forall₂ (fun _ _ hclient => hclient.failure) h)
    (map_eq_of_forall₂ (fun _ _ hclient => hclient.exchanges) h)
    (map_eq_of_forall₂ (fun _ _ hclient => hclient.log) h)
  refine ⟨hresult, ?_, hlog⟩
  rw [connections_merge, connections_merge]
  exact traffic_of_alike h

end Clients

theorem clientRuns_alike (target : Target) (clients : Nat) (operation : Operation)
    (iterations : Nat) (h : a.Alike b) :
    List.Forall₂ ClientRun.Alike (clientRuns target clients operation iterations a)
      (clientRuns target clients operation iterations b) := by
  have hrun : ∀ slice script script', Script.Alike script script' →
      (target.runClient operation slice script).Alike (target.runClient operation slice script') :=
    fun slice _ _ hscript => target.runClient_alike operation slice hscript
  exact forall₂_zipWith hrun (slices iterations clients) (h.nextScripts clients)

theorem runConcurrent_alike (target : Target) (clients : Nat) (operation : Operation)
    (iterations : Nat) (h : a.Alike b) :
    RunAlike (runConcurrent target clients operation iterations a)
      (runConcurrent target clients operation iterations b) := by
  unfold runConcurrent
  rw [h.failingAmong]
  split
  · rename_i index _
    have hstarted : List.Forall₂ ClientRun.Alike
        ((a.nextScripts index).map fun script => (target.dial script).leave)
        ((b.nextScripts index).map fun script => (target.dial script).leave) := by
      rw [List.forall₂_map_left_iff, List.forall₂_map_right_iff]
      exact (h.nextScripts index).imp fun _ _ hscript => (target.dial_alike hscript).leave
    have hlog := flatMap_eq_of_forall₂ (fun _ _ hclient => hclient.log) hstarted
    exact ⟨⟨rfl, traffic_of_alike hstarted, hlog⟩, (h.dropScripts index).countStarts (index + 1)⟩
  · have hruns := clientRuns_alike target clients operation iterations h
    have hleft := (h.dropScripts clients).countStarts clients
    simp only [Network.readClock, Network.countStarts, Network.dropScripts, h.clock]
    exact ⟨merge_alike operation iterations _ hruns, hleft.withClock _⟩

theorem run_alike (driver : Driver) (target : Target) (operation : Operation) (iterations : Nat)
    (h : a.Alike b) :
    RunAlike (driver.run target operation iterations a) (driver.run target operation iterations b) := by
  unfold Driver.run
  split
  · exact ⟨⟨rfl, rfl, rfl⟩, h⟩
  · cases driver with
    | sequential => exact runSequential_alike target operation iterations h
    | concurrent others => exact runConcurrent_alike target (others + 1) operation iterations h

theorem runEach_alike (driver : Driver) (target : Target) (calls : List (Operation × Nat))
    (h : a.Alike b) :
    List.Forall₂ Attempt.Alike (driver.runEach target calls a).1
      (driver.runEach target calls b).1 := by
  induction calls generalizing a b with
  | nil => exact .nil
  | cons call more ih =>
    have hrun := driver.run_alike target call.1 call.2 h
    exact .cons hrun.attempt (ih hrun.network)

end Driver

/-- Threads that ran in any order came to the same as others on the other network, in any order. -/
theorem StartGate.returned_alike {a b : Network} (h : a.Alike b) {target : Target} {clients : Nat}
    {operation : Operation} {iterations : Nat} {state other : State} {attempt attempt' : Attempt}
    (hstate : Reachable (.ofNetwork target clients operation iterations a) a.clock state)
    (hother : Reachable (.ofNetwork target clients operation iterations b) b.clock other)
    (hm : state.main = .returned attempt) (hm' : other.main = .returned attempt') :
    attempt.Alike attempt' := by
  rw [attempt_of_returned hstate hm, attempt_of_returned hother hm']
  exact (Driver.runConcurrent_alike target clients operation iterations h).attempt

end RespLoad
