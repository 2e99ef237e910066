import Mathlib.Data.List.Forall2
import RespLoad.Proofs.Connection.Descriptors
import RespLoad.Proofs.Driver.Accounting

/-!
# The clients of a run

Which clients a run of either driver starts (`Driver.workers`), and how each goes on from dialling
(`Dialled.GoesOn`). The connections of a run are those of its clients, each opened once on a script of its
own, and a run in which a client failed has failed. The clients run one after the other here.
-/
namespace RespLoad

/-- How a client goes on that has dialled: it leaves, or it runs iterations on the connection that it
got. -/
inductive Dialled.GoesOn (operation : Operation) (dialled : Dialled) : ClientRun → Prop
  | leaves : GoesOn operation dialled dialled.leave
  | works {peer : Peer} (hd : dialled.result = .ok peer) (slice : Slice) (clock : Clock) :
      GoesOn operation dialled (dialled.continueWith operation
        (operation.iterate slice.count slice.first peer clock))

theorem goesOn_runClient (target : Target) (operation : Operation) (slice : Slice)
    (script : Script) :
    (target.dial script).GoesOn operation (target.runClient operation slice script) := by
  cases hd : (target.dial script).result with
  | error cause =>
    rw [runClient_of_error hd]
    exact .leaves
  | ok peer =>
    rw [runClient_of_ok hd]
    exact .works hd slice script.clock

theorem Iterates.usesSocket {operation : Operation} {count index : Nat} {peer : Peer}
    {clock : Clock} {work : Iterations} (h : Iterates operation count index peer clock work) :
    ∀ event ∈ work.events, event.usesSocket = true := by
  induction h with
  | done index peer clock => exact List.forall_mem_nil _
  | failed count clock hr => exact (roundTrip_roundTrip _ _).usesSocket
  | exchanged hr hl ih =>
    exact List.forall_mem_append.mpr ⟨(roundTrip_roundTrip _ _).usesSocket, ih⟩

/-- The connection was opened once: behind the calls of dialling no socket is asked for. -/
def Target.OpenedOnce (target : Target) (script : Script) (events : List Event) : Prop :=
  ∃ later, events = (target.dial script).events ++ later ∧
    ∀ failure, Event.socket failure ∉ later

namespace Dialled.GoesOn

variable {operation : Operation} {client : ClientRun}

theorem openedOnce {target : Target} {script : Script}
    (h : (target.dial script).GoesOn operation client) :
    target.OpenedOnce script client.events := by
  cases h with
  | leaves =>
    unfold Dialled.leave
    split
    · exact ⟨[], (List.append_nil _).symm, fun _ => List.not_mem_nil⟩
    · exact ⟨[.close], rfl, fun _ hm => by cases List.mem_singleton.mp hm⟩
  | works hd slice clock =>
    refine ⟨_, List.append_assoc _ _ _, fun failure hm => ?_⟩
    rcases List.mem_append.mp hm with hw | hc
    · have hu := (iterates_iterate operation slice.count slice.first _ clock).usesSocket _ hw
      cases hu
    · cases List.mem_singleton.mp hc

theorem eq_leave {dialled : Dialled} (h : dialled.GoesOn operation client) {cause : OpenError}
    (hd : dialled.result = .error cause) : client = dialled.leave := by
  cases h with
  | leaves => rfl
  | works hd' slice clock =>
    rw [hd] at hd'
    cases hd'

end Dialled.GoesOn

namespace Network

/-- The script of a client that reads the program's own clock, once the start has been taken. -/
def ownScript (network : Network) : Script :=
  { network.nextScript with clock := network.readClock.2.clock }

theorem nextScripts_congr {a b : Network} (h : a.scripts = b.scripts) (count : Nat) :
    a.nextScripts count = b.nextScripts count := by
  rw [nextScripts, nextScripts, h]

/-- The scripts of some connections and of those that come after. -/
theorem nextScripts_add (network : Network) (count more : Nat) :
    network.nextScripts (count + more) =
      network.nextScripts count ++ (network.dropScripts count).nextScripts more := by
  simp only [nextScripts, dropScripts, List.length_drop]
  rcases Nat.le_total count network.scripts.length with hle | hle
  · have hn : count - network.scripts.length = 0 := by omega
    have hm : count + more - network.scripts.length = more - (network.scripts.length - count) := by
      omega
    rw [hn, hm, List.take_add, List.replicate_zero, List.append_nil, List.append_assoc]
  · have hn : count + more - network.scripts.length = count - network.scripts.length + more := by
      omega
    have hz : network.scripts.length - count = 0 := by omega
    rw [hn, hz, List.replicate_add, List.drop_eq_nil_of_le hle, List.take_nil, List.nil_append,
      List.take_of_length_le hle, List.take_of_length_le (Nat.le_add_right_of_le hle),
      List.append_assoc, Nat.sub_zero]

end Network

namespace Driver

/-- What the clients come to that a run starts, in the order of their scripts. -/
def workers (driver : Driver) (target : Target) (operation : Operation) (iterations : Nat)
    (network : Network) : List ClientRun :=
  if Operation.maxIterations < iterations then []
  else match driver with
    | .sequential => [target.runClient operation ⟨0, iterations⟩ network.ownScript]
    | .concurrent others =>
      match network.failingAmong (others + 1) with
      | some index => (network.nextScripts index).map fun script => (target.dial script).leave
      | none => clientRuns target (others + 1) operation iterations network

/-- An attempt shows the calls of its clients, and one that succeeded had no client that failed. -/
structure MadeOf (clients : List ClientRun) (attempt : Attempt) : Prop where
  connections : attempt.connections = clients.map ClientRun.events
  succeeds : ∀ run, attempt.result = .ok run → ∀ client ∈ clients, client.failure = none

section Run

variable (target : Target) (operation : Operation) (iterations : Nat) (network : Network)

theorem madeOf_runSequential :
    MadeOf [target.runClient operation ⟨0, iterations⟩ network.ownScript]
      (runSequential target operation iterations network).1 := by
  -- Dialling does not read the clock, in which the two scripts differ.
  have hsame : target.dial network.ownScript = target.dial network.nextScript := by
    rw [Network.ownScript]
    rfl
  cases hd : (target.dial network.nextScript).result with
  | error cause =>
    rw [runClient_of_error (hsame.symm ▸ hd), hsame]
    simp only [runSequential, hd]
    exact ⟨rfl, fun _ h => by cases h⟩
  | ok peer =>
    rw [runClient_of_ok (hsame.symm ▸ hd), hsame]
    simp only [runSequential, hd]
    split
    · exact ⟨rfl, fun _ h => by cases h⟩
    · rename_i hn
      exact ⟨rfl, fun _ _ => List.forall_mem_singleton.mpr hn⟩

theorem madeOf_run (driver : Driver) :
    MadeOf (driver.workers target operation iterations network)
      (driver.run target operation iterations network).1 := by
  by_cases hlimit : Operation.maxIterations < iterations
  · simp only [Driver.run, workers, if_pos hlimit]
    exact ⟨rfl, fun _ h => by cases h⟩
  · simp only [Driver.run, workers, if_neg hlimit]
    cases driver with
    | sequential => exact madeOf_runSequential target operation iterations network
    | concurrent others =>
      cases hf : network.failingAmong (others + 1) with
      | some index =>
        simp only [runConcurrent, hf]
        exact ⟨rfl, fun _ h => by cases h⟩
      | none =>
        simp only [runConcurrent, hf]
        exact ⟨connections_merge _ _ _ _, fun run hr => (run_of_merge hr).1⟩

/-- The relation between a script and a client that has its connection on it. -/
abbrev GoesOnFrom (script : Script) (client : ClientRun) : Prop :=
  (target.dial script).GoesOn operation client

theorem forall₂_clientRuns (clients : Nat) :
    List.Forall₂ (GoesOnFrom target operation) (network.nextScripts clients)
      (clientRuns target clients operation iterations network) := by
  have hl : (slices iterations clients).length = (network.nextScripts clients).length := by
    rw [length_slices, Network.length_nextScripts]
  rw [clientRuns]
  generalize slices iterations clients = ranges at hl
  generalize network.nextScripts clients = scripts at hl
  induction ranges generalizing scripts with
  | nil =>
    obtain rfl := List.length_eq_zero_iff.mp hl.symm
    exact .nil
  | cons slice ranges ih =>
    cases scripts with
    | nil => cases hl
    | cons script more =>
      exact .cons (goesOn_runClient target operation slice script) (ih more (Nat.succ.inj hl))

/-- Each client has the script of its own place. -/
theorem forall₂_workers (driver : Driver) :
    List.Forall₂ (GoesOnFrom target operation)
      ((network.nextScripts driver.clients).take
        (driver.workers target operation iterations network).length)
      (driver.workers target operation iterations network) := by
  by_cases hlimit : Operation.maxIterations < iterations
  · simp only [workers, if_pos hlimit]
    exact .nil
  · simp only [workers, if_neg hlimit]
    cases driver with
    | sequential =>
      rw [clients, Network.nextScripts_one]
      have hown := goesOn_runClient target operation ⟨0, iterations⟩ network.ownScript
      exact .cons hown .nil
    | concurrent others =>
      cases hf : network.failingAmong (others + 1) with
      | some index =>
        have hlt := Network.lt_of_failingAmong hf
        simp only [hf, clients, List.length_map, Network.length_nextScripts]
        rw [network.take_nextScripts (Nat.le_of_lt hlt), List.forall₂_map_right_iff,
          List.forall₂_same]
        exact fun script _ => .leaves
      | none =>
        have hall := forall₂_clientRuns target operation iterations network (others + 1)
        simp only [hf, clients, length_clientRuns]
        rwa [List.take_of_length_le (Nat.le_of_eq (network.length_nextScripts _))]

/-- When all threads could be started there is a client for each script that was taken. -/
theorem taken_of_started (driver : Driver) (hlimit : iterations ≤ Operation.maxIterations)
    (hstart : ∀ index,
      (driver.run target operation iterations network).1.result ≠ .error (.threadStart index)) :
    (driver.workers target operation iterations network).length = driver.clients ∧
      (driver.run target operation iterations network).2.scripts =
        network.scripts.drop driver.clients := by
  have hl := Nat.not_lt.mpr hlimit
  simp only [Driver.run, workers, if_neg hl] at hstart ⊢
  cases driver with
  | sequential =>
    refine ⟨rfl, ?_⟩
    cases hd : (target.dial network.nextScript).result with
    | error cause => simp only [runSequential, hd]; rfl
    | ok peer => simp only [runSequential, hd]; split <;> rfl
  | concurrent others =>
    cases hf : network.failingAmong (others + 1) with
    | some index =>
      simp only [runConcurrent, hf] at hstart
      exact absurd rfl (hstart index)
    | none =>
      simp only [runConcurrent, hf]
      exact ⟨length_clientRuns target (others + 1) operation iterations network, rfl⟩

end Run

end Driver

end RespLoad
