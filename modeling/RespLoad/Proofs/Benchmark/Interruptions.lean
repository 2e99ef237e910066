import RespLoad.Proofs.Benchmark.RunControl
import RespLoad.Proofs.Driver.Interruptions

/-!
# Interruptions in a benchmark

On networks that are alike whole benchmarks are the same, and so are their reports, logs and exit codes.
Networks are alike when interruptions are taken out of one, or when what is accepted of what is sent
comes in other pieces. So nothing that a driver or a benchmark comes to tells such networks apart.
-/
namespace RespLoad

/-- Runners that answer the same in related states make the same outcomes, and their states stay
related. -/
theorem Runner.runEach_related {σ τ : Type} {r : σ → τ → Prop} {run : Runner σ} {run' : Runner τ}
    (hrun : ∀ (operation : Operation) (iterations : Nat) (state : σ) (other : τ), r state other →
      (run operation iterations state).1 = (run' operation iterations other).1 ∧
        r (run operation iterations state).2 (run' operation iterations other).2)
    (policy : FailurePolicy) (iterations : Nat) (operations : List Operation) {state : σ} {other : τ}
    (h : r state other) :
    (run.runEach policy iterations operations state).1 =
        (run'.runEach policy iterations operations other).1 ∧
      r (run.runEach policy iterations operations state).2
        (run'.runEach policy iterations operations other).2 := by
  induction operations generalizing state other with
  | nil => exact ⟨rfl, h⟩
  | cons operation more ih =>
    obtain ⟨hanswer, hstate⟩ := hrun operation iterations state other h
    rcases Runner.ends_or_goesOn policy (run operation iterations state).1 with ⟨rfl, hf⟩ | hgo
    · rw [runEach_of_failure hf, runEach_of_failure (hanswer ▸ hf), hanswer]
      exact ⟨rfl, hstate⟩
    · rw [runEach_of_goesOn hgo, runEach_of_goesOn (hanswer ▸ hgo), hanswer]
      obtain ⟨houtcomes, hleft⟩ := ih hstate
      exact ⟨congrArg (_ :: ·) houtcomes, hleft⟩

/-- Two benchmarks stand before networks that are alike, and their connections carried the same. -/
structure Progress.Alike (a b : Progress) : Prop where
  network : a.network.Alike b.network
  traffic : a.connections.map traffic = b.connections.map traffic

theorem Driver.runner_alike (driver : Driver) (target : Target) (operation : Operation)
    (iterations : Nat) (a b : Progress) (h : a.Alike b) :
    (driver.runner target operation iterations a).1 =
        (driver.runner target operation iterations b).1 ∧
      (driver.runner target operation iterations a).2.Alike
        (driver.runner target operation iterations b).2 := by
  have hrun := driver.run_alike target operation iterations h.network
  constructor
  · simp only [Driver.runner, hrun.attempt.result, hrun.attempt.log]
  · refine ⟨hrun.network, ?_⟩
    simp only [Driver.runner, List.map_append, h.traffic, hrun.attempt.traffic]

theorem Settings.benchmarkOn_alike (settings : Settings) {a b : Network} (h : a.Alike b) :
    (settings.benchmarkOn a).1 = (settings.benchmarkOn b).1 ∧
      (settings.benchmarkOn a).2.Alike (settings.benchmarkOn b).2 := by
  have hstart : Progress.Alike { network := a } { network := b } := ⟨h, rfl⟩
  obtain ⟨houtcomes, hprogress⟩ := Runner.runEach_related
    ((Driver.choose settings.clients).runner_alike settings.target) settings.onFailure
    settings.iterations settings.operations hstart
  exact ⟨congrArg (Benchmark.mk settings) houtcomes, hprogress⟩

namespace Network

/-- The network without the interruptions. -/
def uninterrupted (network : Network) : Network :=
  { network with scripts := network.scripts.map Script.uninterrupted }

/-- The other network has the same scripts, with other pieces accepted where all of what is sent is. -/
structure Recut (network other : Network) : Prop where
  scripts : List.Forall₂ Script.Recut network.scripts other.scripts
  same : other = { network with scripts := other.scripts }

theorem alike_uninterrupted (network : Network) : network.Alike network.uninterrupted := by
  refine ⟨?_, rfl, rfl, rfl⟩
  rw [uninterrupted, List.forall₂_map_right_iff]
  exact List.forall₂_same.mpr fun script _ => script.alike_uninterrupted

theorem Recut.alike {network other : Network} (h : network.Recut other) : network.Alike other := by
  obtain ⟨hscripts, hsame⟩ := h
  rw [hsame]
  exact ⟨hscripts.imp fun _ _ hscript => hscript.alike, rfl, rfl, rfl⟩

/-- Nothing that a driver or a benchmark comes to tells the networks apart. The report, the log and the exit
code of a benchmark are functions of what is equal here. -/
structure Indistinguishable (a b : Network) : Prop where
  run : ∀ (driver : Driver) (target : Target) (operation : Operation) (iterations : Nat),
    (driver.run target operation iterations a).1.Alike (driver.run target operation iterations b).1
  runEach : ∀ (driver : Driver) (target : Target) (calls : List (Operation × Nat)),
    List.Forall₂ Attempt.Alike (driver.runEach target calls a).1 (driver.runEach target calls b).1
  interleaved : ∀ (target : Target) (clients : Nat) (operation : Operation) (iterations : Nat)
    (state other : StartGate.State) (attempt attempt' : Attempt),
    StartGate.Reachable (.ofNetwork target clients operation iterations a) a.clock state →
    StartGate.Reachable (.ofNetwork target clients operation iterations b) b.clock other →
    state.main = .returned attempt → other.main = .returned attempt' → attempt.Alike attempt'
  benchmark : ∀ settings : Settings, (settings.benchmarkOn a).1 = (settings.benchmarkOn b).1
  traffic : ∀ settings : Settings, (settings.benchmarkOn a).2.connections.map traffic =
    (settings.benchmarkOn b).2.connections.map traffic

theorem Alike.indistinguishable {a b : Network} (h : a.Alike b) : a.Indistinguishable b where
  run driver target operation iterations := (driver.run_alike target operation iterations h).attempt
  runEach driver target calls := driver.runEach_alike target calls h
  interleaved _ _ _ _ _ _ _ _ hstate hother hm hm' :=
    StartGate.returned_alike h hstate hother hm hm'
  benchmark settings := (settings.benchmarkOn_alike h).1
  traffic settings := (settings.benchmarkOn_alike h).2.traffic

/-- Interruptions are not seen, and as long as sending goes on behind every outcome of a connection,
neither are the pieces in which it is accepted: with interruptions taken out of the scripts, or other such
pieces put into them, each run of each driver and each benchmark comes to the same. -/
theorem interruptions_and_cuts_unseen (network : Network) :
    network.Indistinguishable network.uninterrupted ∧
      ∀ other : Network, network.Recut other → network.Indistinguishable other := by
  constructor
  · exact network.alike_uninterrupted.indistinguishable
  · intro other h
    exact h.alike.indistinguishable

/-- Two clients, of whom the first is interrupted and has its requests accepted in pieces, one of them
empty, and the second is interrupted before a send fails. It takes fewer calls without the interruptions,
and fewer still with whole requests, but the error, the bytes and the replies are the same. -/
theorem interruptions_and_cuts_unseen_two_clients :
    let pong := ReadOutcome.data (utf8 "+PONG\r\n")
    let refusing : Script :=
      { peer := { sends := [.accept 4, .fail .interrupted, .fail .brokenPipe] } }
    let peer : Peer := { reads := [.fail .interrupted, pong, pong] }
    let cuts : List SendOutcome := [.accept 3, .fail .interrupted, .accept 0, .accept 2]
    let network : Network := { scripts := [{ peer := { peer with sends := cuts } }, refusing] }
    let whole : Network := { scripts := [{ peer := peer }, refusing] }
    let attempt := fun network => ((Driver.concurrent 1).run {} .ping 3 network).1
    let calls := fun network => (attempt network).connections.map List.length
    let error := RunError.numbered 1 (.iteration ⟨.ping, 2, .failed ⟨utf8 "send()", .brokenPipe⟩⟩)
    calls network = [13, 7] ∧ calls network.uninterrupted = [11, 6] ∧ calls whole = [9, 7] ∧
    (attempt network.uninterrupted).result = .error error ∧ (attempt whole).result = .error error ∧
    (attempt network.uninterrupted).connections.map traffic =
      (attempt whole).connections.map traffic := by
  intro pong refusing peer cuts network whole attempt calls error
  obtain ⟨hcalm, hcut⟩ := interruptions_and_cuts_unseen network
  have hwhole : network.Recut whole :=
    ⟨.cons (.sends [] (by decide) (by decide)) (.cons .same .nil), rfl⟩
  have hrun := hcalm.run (.concurrent 1) {} .ping 3
  have hrun' := (hcut whole hwhole).run (.concurrent 1) {} .ping 3
  have hresult : (attempt network).result = .error error := by
    have hfails : (match (attempt network).result with
        | .error cause => decide (cause = error)
        | .ok _ => false) = true := by decide +kernel
    cases hr : (attempt network).result with
    | ok run => rw [hr] at hfails; cases hfails
    | error cause => rw [hr] at hfails; rw [of_decide_eq_true hfails]
  exact ⟨by decide +kernel, by decide +kernel, by decide +kernel, hrun.result.symm.trans hresult,
    hrun'.result.symm.trans hresult, hrun.traffic.symm.trans hrun'.traffic⟩

end Network

end RespLoad
