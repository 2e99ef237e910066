import RespLoad.Proofs.Connection.Credentials
import RespLoad.Proofs.Driver.Workers

/-!
# Credentials in a run

Drivers that connect to targets which differ in the credentials only come to the same on the same network:
the same run or error, the same log and the same network left. Each two connections differ in the rests of
the greetings that were offered while dialling, and in nothing that came later.
-/
namespace RespLoad

/-- Two connections on one script: dialling differs in the rests of the greetings only, and behind it the
calls are the same. -/
def Target.SameConnection (first second : Target) (events events' : List Event) : Prop :=
  ∃ script later, events = (first.dial script).events ++ later ∧
    events' = (second.dial script).events ++ later ∧
    SameCallsBut first.frame second.frame (first.dial script).events (second.dial script).events

/-- Two clients came to the same, each with its own target. -/
structure ClientRun.SameBut (first second : Target) (a b : ClientRun) : Prop where
  failure : a.failure = b.failure
  exchanges : a.exchanges = b.exchanges
  log : a.log = b.log
  connection : first.SameConnection second a.events b.events

/-- Two attempts came to the same, each with its own target. -/
structure Attempt.SameBut (first second : Target) (a b : Attempt) : Prop where
  result : a.result = b.result
  log : a.log = b.log
  connections : List.Forall₂ (first.SameConnection second) a.connections b.connections

/-- Two calls of a driver came to the same. -/
structure RunSameBut (first second : Target) (a b : Attempt × Network) : Prop where
  attempt : a.1.SameBut first second b.1
  network : a.2 = b.2

theorem connections_of_sameBut {first second : Target} {clients others : List ClientRun}
    (h : List.Forall₂ (ClientRun.SameBut first second) clients others) :
    List.Forall₂ (first.SameConnection second) (clients.map ClientRun.events)
      (others.map ClientRun.events) := by
  rw [List.forall₂_map_left_iff, List.forall₂_map_right_iff]
  exact h.imp fun _ _ hclient => hclient.connection

namespace Target.SameButCredentials

variable {a b : Target} (h : a.SameButCredentials b)

include h

theorem leave (script : Script) :
    (a.dial script).leave.SameBut a b (b.dial script).leave := by
  obtain ⟨hresult, hlog, hcalls⟩ := h.dial script
  unfold Dialled.leave
  rw [hresult, hlog]
  split
  · exact ⟨rfl, rfl, rfl, script, [], (List.append_nil _).symm, (List.append_nil _).symm, hcalls⟩
  · exact ⟨rfl, rfl, rfl, script, [.close], rfl, rfl, hcalls⟩

theorem continueWith (script : Script) (operation : Operation) (work : Iterations) :
    ((a.dial script).continueWith operation work).SameBut a b
      ((b.dial script).continueWith operation work) := by
  obtain ⟨hresult, hlog, hcalls⟩ := h.dial script
  refine ⟨rfl, rfl, ?_, script, work.events ++ [.close], ?_, ?_, hcalls⟩
  · simp only [Dialled.continueWith, hlog]
  · exact List.append_assoc _ _ _
  · exact List.append_assoc _ _ _

theorem runClient (operation : Operation) (slice : Slice) (script : Script) :
    (a.runClient operation slice script).SameBut a b (b.runClient operation slice script) := by
  have hresult := (h.dial script).result
  cases hd : (b.dial script).result with
  | error cause =>
    rw [runClient_of_error (hresult.trans hd), runClient_of_error hd]
    exact h.leave script
  | ok peer =>
    rw [runClient_of_ok (hresult.trans hd), runClient_of_ok hd]
    exact h.continueWith script operation _

theorem runSequential (operation : Operation) (iterations : Nat) (network : Network) :
    RunSameBut a b (Driver.runSequential a operation iterations network)
      (Driver.runSequential b operation iterations network) := by
  have hresult := (h.dial network.nextScript).result
  cases hd : (b.dial network.nextScript).result with
  | error cause =>
    have hleave := h.leave network.nextScript
    simp only [Driver.runSequential, hresult.trans hd, hd]
    exact ⟨⟨rfl, hleave.log, .cons hleave.connection .nil⟩, rfl⟩
  | ok peer =>
    have hclient := h.continueWith network.nextScript operation (operation.iterate iterations 0 peer
      (network.dropScripts 1).readClock.2.clock)
    simp only [Driver.runSequential, hresult.trans hd, hd, hclient.failure, hclient.exchanges]
    split
    · exact ⟨⟨rfl, hclient.log, .cons hclient.connection .nil⟩, rfl⟩
    · exact ⟨⟨rfl, hclient.log, .cons hclient.connection .nil⟩, rfl⟩

theorem runConcurrent (clients : Nat) (operation : Operation) (iterations : Nat)
    (network : Network) :
    RunSameBut a b (Driver.runConcurrent a clients operation iterations network)
      (Driver.runConcurrent b clients operation iterations network) := by
  unfold Driver.runConcurrent
  split
  · rename_i index _
    have hstarted : List.Forall₂ (ClientRun.SameBut a b)
        ((network.nextScripts index).map fun script => (a.dial script).leave)
        ((network.nextScripts index).map fun script => (b.dial script).leave) := by
      rw [List.forall₂_map_left_iff, List.forall₂_map_right_iff]
      exact List.forall₂_same.mpr fun script _ => h.leave script
    have hlog := flatMap_eq_of_forall₂ (fun _ _ hclient => hclient.log) hstarted
    exact ⟨⟨rfl, hlog, connections_of_sameBut hstarted⟩, rfl⟩
  · have hrun : ∀ slice script script', script = script' → ClientRun.SameBut a b
        (a.runClient operation slice script) (b.runClient operation slice script') := by
      rintro slice script _ rfl
      exact h.runClient operation slice script
    have hruns := forall₂_zipWith hrun (Driver.slices iterations clients)
      (List.forall₂_refl (network.nextScripts clients))
    obtain ⟨hresult, hlog⟩ := Driver.merge_congr operation iterations _
      (map_eq_of_forall₂ (fun _ _ hclient => hclient.failure) hruns)
      (map_eq_of_forall₂ (fun _ _ hclient => hclient.exchanges) hruns)
      (map_eq_of_forall₂ (fun _ _ hclient => hclient.log) hruns)
    refine ⟨⟨hresult, hlog, ?_⟩, rfl⟩
    rw [Driver.connections_merge, Driver.connections_merge]
    exact connections_of_sameBut hruns

theorem run (driver : Driver) (operation : Operation) (iterations : Nat) (network : Network) :
    RunSameBut a b (driver.run a operation iterations network)
      (driver.run b operation iterations network) := by
  unfold Driver.run
  split
  · exact ⟨⟨rfl, rfl, .nil⟩, rfl⟩
  · cases driver with
    | sequential => exact h.runSequential operation iterations network
    | concurrent others => exact h.runConcurrent (others + 1) operation iterations network

end Target.SameButCredentials

end RespLoad
