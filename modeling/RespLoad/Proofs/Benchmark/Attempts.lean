import RespLoad.Proofs.Benchmark.RunControl
import RespLoad.Proofs.Driver.Workers

/-!
# The attempts of a benchmark

A benchmark on a network is its driver's runs one after the other, each on what the ones before have
left. When all threads can be started, each run opens one connection for each client of the driver, on
the scripts in their order. What is said on a connection is not spoken of.
-/
namespace RespLoad

/-- What an attempt of a driver is to a benchmark. -/
def Attempt.answer (attempt : Attempt) : Answer :=
  ⟨attempt.result.mapError RunError.message, attempt.log⟩

namespace Driver

/-- The runs behind the outcomes of a benchmark, for those operations that were called. -/
theorem runEach_runner (driver : Driver) (target : Target) (policy : FailurePolicy)
    (iterations : Nat) (operations : List Operation) (progress : Progress) :
    let ran := (driver.runner target).runEach policy iterations operations progress
    let attempts := driver.runEach target
      ((operations.take ran.1.length).map fun operation => (operation, iterations)) progress.network
    ran.1.map Outcome.toAnswer = attempts.1.map Attempt.answer ∧
      ran.2.connections = progress.connections ++ attempts.1.flatMap Attempt.connections ∧
      ran.2.network = attempts.2 := by
  induction operations generalizing progress with
  | nil => exact ⟨rfl, (List.append_nil _).symm, rfl⟩
  | cons operation more ih =>
    rcases Runner.ends_or_goesOn policy (driver.runner target operation iterations progress).1 with
      ⟨rfl, hf⟩ | hgo
    · rw [Runner.runEach_of_failure hf]
      exact ⟨rfl, by simp [Driver.runEach, Driver.runner], rfl⟩
    · rw [Runner.runEach_of_goesOn hgo]
      obtain ⟨hanswers, hconnections, hnetwork⟩ :=
        ih (driver.runner target operation iterations progress).2
      refine ⟨?_, ?_, hnetwork⟩
      · exact congrArg (_ :: ·) hanswers
      · rw [hconnections]
        exact List.append_assoc _ _ _

theorem merge_ne_tooManyIterations (operation : Operation) (iterations : Nat) (elapsed : Int)
    (clients : List ClientRun) (count : Nat) :
    (merge operation iterations elapsed clients).result ≠ .error (.tooManyIterations count) := by
  intro h
  unfold merge at h
  cases hf : firstFailure clients with
  | none => simp only [hf] at h; cases h
  | some error =>
    simp only [hf] at h
    obtain ⟨⟨client, index⟩, _, hc⟩ := List.exists_of_findSome?_eq_some hf
    obtain ⟨cause, _, rfl⟩ := Option.map_eq_some_iff.mp hc
    cases h

/-- A run of not too many iterations is not refused for their number. -/
theorem run_ne_tooManyIterations (driver : Driver) (target : Target) (operation : Operation)
    {iterations : Nat} (hlimit : iterations ≤ Operation.maxIterations) (network : Network)
    (count : Nat) :
    (driver.run target operation iterations network).1.result ≠
      .error (.tooManyIterations count) := by
  simp only [Driver.run, if_neg (Nat.not_lt.mpr hlimit)]
  cases driver with
  | sequential =>
    cases hd : (target.dial network.nextScript).result with
    | error cause => simp only [runSequential, hd]; exact fun h => by cases h
    | ok peer => simp only [runSequential, hd]; split <;> exact fun h => by cases h
  | concurrent others =>
    cases hf : network.failingAmong (others + 1) with
    | some index => simp only [runConcurrent, hf]; exact fun h => by cases h
    | none => simp only [runConcurrent, hf]; exact merge_ne_tooManyIterations _ _ _ _ count

theorem runEach_cons (driver : Driver) (target : Target) (operation : Operation)
    (iterations : Nat) (more : List (Operation × Nat)) (network : Network) :
    driver.runEach target ((operation, iterations) :: more) network =
      let first := driver.run target operation iterations network
      let later := driver.runEach target more first.2
      (first.1 :: later.1, later.2) := rfl

theorem length_runEach (driver : Driver) (target : Target) (calls : List (Operation × Nat))
    (network : Network) : (driver.runEach target calls network).1.length = calls.length := by
  induction calls generalizing network with
  | nil => rfl
  | cons call more ih => exact congrArg (· + 1) (ih _)

/-- Every thread of the attempt could be started. -/
def AllStarted (attempt : Attempt) : Prop :=
  ∀ index, attempt.result ≠ .error (.threadStart index)

/-- The connections of a run: each was opened once, and each on the script of its own place. -/
theorem openedOnce_run (driver : Driver) (target : Target) (operation : Operation)
    {iterations : Nat} (network : Network) (hlimit : iterations ≤ Operation.maxIterations)
    (hstart : AllStarted (driver.run target operation iterations network).1) :
    List.Forall₂ target.OpenedOnce (network.nextScripts driver.clients)
      (driver.run target operation iterations network).1.connections := by
  have hworkers := forall₂_workers target operation iterations network driver
  rw [(taken_of_started target operation iterations network driver hlimit hstart).1,
    List.take_of_length_le (Nat.le_of_eq (network.length_nextScripts _))] at hworkers
  rw [(madeOf_run target operation iterations network driver).connections,
    List.forall₂_map_right_iff]
  exact hworkers.imp fun script client h => h.openedOnce

/-- The connections of runs one after the other go on through the scripts in their order. -/
theorem openedOnce_runEach (driver : Driver) (target : Target) {calls : List (Operation × Nat)}
    (network : Network) (hlimit : ∀ call ∈ calls, call.2 ≤ Operation.maxIterations)
    (hstart : ∀ attempt ∈ (driver.runEach target calls network).1, AllStarted attempt) :
    (∀ attempt ∈ (driver.runEach target calls network).1,
      attempt.connections.length = driver.clients) ∧
    List.Forall₂ target.OpenedOnce (network.nextScripts (calls.length * driver.clients))
      ((driver.runEach target calls network).1.flatMap Attempt.connections) := by
  induction calls generalizing network with
  | nil =>
    rw [List.length_nil, Nat.zero_mul]
    exact ⟨List.forall_mem_nil _, by simp [Driver.runEach, Network.nextScripts]⟩
  | cons call more ih =>
    obtain ⟨operation, iterations⟩ := call
    rw [runEach_cons] at hstart ⊢
    obtain ⟨hfew, hmore⟩ := List.forall_mem_cons.mp hlimit
    obtain ⟨hfirst, hlater⟩ := List.forall_mem_cons.mp hstart
    have hopened := openedOnce_run driver target operation network hfew hfirst
    have hleft := (taken_of_started target operation iterations network driver hfew hfirst).2
    obtain ⟨hcounts, hothers⟩ := ih _ hmore hlater
    constructor
    · refine List.forall_mem_cons.mpr ⟨?_, hcounts⟩
      rw [← hopened.length_eq, Network.length_nextScripts]
    · rw [List.length_cons, Nat.succ_mul, Nat.add_comm, Network.nextScripts_add]
      have hscripts := Network.nextScripts_congr (a := network.dropScripts driver.clients)
        hleft.symm (more.length * driver.clients)
      rw [hscripts]
      exact List.rel_append hopened hothers

end Driver

end RespLoad
