import Mathlib.Tactic.Push
import Mathlib.Tactic.ByContra
import RespLoad.Proofs.Driver.Advance
import RespLoad.Proofs.Driver.Interleaving

/-!
# Safety of the start gate

The count at the gate is the number of threads that have dialled and said so. From this, in every
state that some interleaving reaches: no client sends a command before all clients have dialled and
the time has been taken, none sends one at all after a start that failed, and while the run has not
returned some thread can make a step. Who makes the next step is not restricted.
-/
namespace RespLoad

namespace Thread

/-- All that was offered so far is of the request that authenticates, if there is one. -/
def OnlyGreets (job : Job) (thread : Thread) : Prop :=
  SendsInTurn job.target.greeting thread.events

/-- The thread has made every call of dialling, successfully or not, and has counted itself. -/
structure HasDialled (job : Job) (thread : Thread) : Prop where
  counted : thread.hasCounted = true
  calls : (job.target.dial job.script).events <+: thread.events

theorem hasCounted_released {job : Job} {thread : Thread} (failure : Option OpenError)
    (cancelled : Bool) : (thread.released job failure cancelled).hasCounted = true := by
  cases failure with
  | some cause => rfl
  | none => cases cancelled <;> rfl

/-- A thread that arrives at the gate has made the calls of dialling and no others. -/
theorem events_of_arriving {job : Job} {thread : Thread} {failure : Option OpenError}
    (hs : thread.stage = .arriving failure) (h : thread.finish job true = job.outcome true) :
    thread.events = (job.target.dial job.script).events := by
  have hf : thread.finish job true = thread.finishWaiting job true failure := by
    simp only [finish, hs]
  have ho : job.outcome true = (job.target.dial job.script).leave := rfl
  rw [hf, ho] at h
  have hfailure := congrArg ClientRun.failure h
  have hevents := congrArg ClientRun.events h
  cases failure with
  | some cause =>
    cases hd : (job.target.dial job.script).result with
    | error other =>
      simp only [finishWaiting, conclude, Dialled.leave, hd] at hevents
      exact hevents
    | ok peer =>
      simp only [finishWaiting, conclude, Dialled.leave, hd] at hfailure
      cases hfailure
  | none =>
    cases hd : (job.target.dial job.script).result with
    | error other =>
      simp only [finishWaiting, finishLeaving, conclude, Dialled.leave, hd] at hfailure
      cases hfailure
    | ok peer =>
      simp only [finishWaiting, finishLeaving, conclude, called, Dialled.leave, hd] at hevents
      exact List.append_cancel_right hevents

end Thread

namespace StartGate

variable {setup : Setup} {clock : Clock} {state : State}

/-- The calls of a thread are never taken back. -/
theorem events_of_clientMove {job : Job} {thread moved : Thread} {counted : Nat}
    (h : ClientMove job state thread moved counted) : thread.events <+: moved.events := by
  cases h with
  | arrive hs => exact List.prefix_refl _
  | @pass failure hs ho =>
    cases failure with
    | some cause => exact List.prefix_refl _
    | none =>
      simp only [Thread.released]
      split
      · exact List.prefix_refl _
      · exact List.prefix_refl _
  | work ha hw he => exact (Thread.advance_step job ha hw he).events_mono

/-- A move raises the count by one exactly if the thread counts itself in it. -/
theorem hasCounted_of_clientMove {job : Job} {thread moved : Thread} {counted : Nat}
    (h : ClientMove job state thread moved counted) :
    (counted = 1 ∧ thread.hasCounted = false ∧ moved.hasCounted = true) ∨
      (counted = 0 ∧ moved.hasCounted = thread.hasCounted) := by
  cases h with
  | arrive hs =>
    refine Or.inl ⟨rfl, ?_, rfl⟩
    rw [Thread.hasCounted, hs]
    rfl
  | pass hs ho =>
    refine Or.inr ⟨rfl, ?_⟩
    rw [Thread.hasCounted_released, Thread.hasCounted, hs]
    rfl
  | work ha hw he => exact Or.inr ⟨rfl, (Thread.advance_step job ha hw he).hasCounted_eq⟩

/-- What holds of the count in every state that is reached from a clock. -/
structure Gated (setup : Setup) (clock : Clock) (state : State) : Prop where
  ready : state.ready = state.clients.countP Thread.hasCounted
  time : clock.taken ≤ state.clock.taken
  passed : state.isOpen = true → state.cancelled = false →
    state.clients.length = setup.jobs.length ∧ (∀ thread ∈ state.clients, thread.hasCounted = true) ∧
      clock.taken < state.clock.taken
  refused : ∀ k, setup.failing = some k → k < setup.jobs.length → state.clients.length ≤ k
  dialled : ∀ (index : Nat) (thread : Thread) (job : Job), state.clients[index]? = some thread →
    setup.jobs[index]? = some job → thread.hasCounted = true →
      (job.target.dial job.script).events <+: thread.events

/-- While some thread has not counted itself, cancelling is a decision that the gate may take. -/
theorem Gated.mayCancel (h : Gated setup clock state) {thread : Thread}
    (hm : thread ∈ state.clients) (hn : thread.hasCounted = false) : state.MayDecide true := by
  intro ho
  cases hc : state.cancelled with
  | true => rfl
  | false =>
    have hcounted := (h.passed ho hc).2.1 thread hm
    rw [hn] at hcounted
    cases hcounted

/-- One client counts itself, or the count stays; the other clients do not matter. -/
theorem countP_of_clientMove {job : Job} {index counted : Nat} {thread moved : Thread}
    (ht : state.clients[index]? = some thread) (hm : ClientMove job state thread moved counted) :
    (state.clients.set index moved).countP Thread.hasCounted =
      state.clients.countP Thread.hasCounted + counted := by
  obtain ⟨hl, hget⟩ := List.getElem?_eq_some_iff.mp ht
  rw [List.countP_set hl, hget]
  rcases hasCounted_of_clientMove hm with ⟨rfl, hn, hc⟩ | ⟨rfl, hsame⟩
  · rw [hn, hc]
    simp
  · rw [hsame]
    cases hc : thread.hasCounted with
    | false => simp
    | true =>
      have hpos : 0 < state.clients.countP Thread.hasCounted :=
        List.countP_pos_iff.mpr ⟨thread, List.mem_of_getElem? ht, hc⟩
      simp
      omega

theorem gated_clientMove (hc : Coherent setup state) (h : Gated setup clock state) {job : Job}
    {index counted : Nat} {thread moved : Thread} (ht : state.clients[index]? = some thread)
    (hj : setup.jobs[index]? = some job) (hm : ClientMove job state thread moved counted) :
    Gated setup clock { state with
      clients := state.clients.set index moved, ready := state.ready + counted } := by
  have hmem := List.mem_of_getElem? ht
  refine ⟨?_, h.time, ?_, ?_, ?_⟩
  · exact (congrArg (· + counted) h.ready).trans (countP_of_clientMove ht hm).symm
  · intro ho hgo
    obtain ⟨hall, hcounted, htime⟩ := h.passed ho hgo
    refine ⟨by rwa [List.length_set], ?_, htime⟩
    intro other ho
    rcases List.mem_or_eq_of_mem_set ho with hold | rfl
    · exact hcounted other hold
    · rcases hasCounted_of_clientMove hm with ⟨_, _, hafter⟩ | ⟨_, hsame⟩
      · exact hafter
      · rw [hsame]
        exact hcounted thread hmem
  · intro k hf hk
    rw [List.length_set]
    exact h.refused k hf hk
  · intro other thread' job' ht' hj' hn'
    by_cases ho : index = other
    · subst ho
      have hl : index < state.clients.length := (List.getElem?_eq_some_iff.mp ht).1
      rw [List.getElem?_set_self hl, Option.some.injEq] at ht'
      rw [hj, Option.some.injEq] at hj'
      subst ht' hj'
      by_cases hn : thread.hasCounted = true
      · exact (h.dialled index thread job ht hj hn).trans (events_of_clientMove hm)
      · have hn := Bool.eq_false_iff.mpr hn
        -- The thread counts itself in this move, so it has just arrived.
        cases hm with
        | arrive hs =>
          have hfinish := hc.outcomes index thread job ht hj true (h.mayCancel hmem hn)
          rw [← Thread.events_of_arriving hs hfinish]
          exact List.prefix_refl _
        | pass hs ho =>
          rw [Thread.hasCounted, hs] at hn
          cases hn
        | work ha hw he =>
          rw [(Thread.advance_step job ha hw he).hasCounted_eq, hn] at hn'
          cases hn'
    · rw [List.getElem?_set_ne ho] at ht'
      exact h.dialled other thread' job' ht' hj' hn'

/-- A client that has just been started has not counted itself and is the only one that is new. -/
theorem gated_start (hc : Coherent setup state) (h : Gated setup clock state) {job : Job}
    (hm : state.main = .starting) (hf : setup.failing ≠ some state.clients.length) :
    Gated setup clock { state with clients := state.clients ++ [Thread.start job] } := by
  have hstage := hc.stage
  simp only [AtStage, hm] at hstage
  have hnew : (Thread.start job).hasCounted = false := rfl
  refine ⟨?_, h.time, ?_, ?_, ?_⟩
  · rw [h.ready, List.countP_append, List.countP_singleton, hnew]
    rfl
  · intro ho
    rw [hstage.1] at ho
    cases ho
  · intro k hk hl
    have hle := h.refused k hk hl
    have hne : state.clients.length ≠ k := by
      rintro rfl
      exact hf hk
    rw [List.length_append, List.length_singleton]
    omega
  · intro index thread job' ht hj hn
    by_cases hi : index < state.clients.length
    · rw [List.getElem?_append_left hi] at ht
      exact h.dialled index thread job' ht hj hn
    · have hthread : thread = Thread.start job := by
        rw [List.getElem?_append_right (Nat.le_of_not_lt hi)] at ht
        exact List.mem_singleton.mp (List.mem_of_getElem? ht)
      rw [hthread, hnew] at hn
      cases hn

theorem gated_mainMove (hc : Coherent setup state) (h : Gated setup clock state) {after : State}
    (hm : MainMove setup state after) : Gated setup clock after := by
  have hstage := hc.stage
  cases hm with
  | start hm hj hf => exact gated_start hc h hm hf
  | refuse hm hj hf => exact ⟨h.ready, h.time, h.passed, h.refused, h.dialled⟩
  | gather hm hj => exact ⟨h.ready, h.time, h.passed, h.refused, h.dialled⟩
  | release hm hr =>
    simp only [AtStage, hm] at hstage
    refine ⟨h.ready, Nat.le_succ_of_le h.time, fun _ _ => ⟨hstage.2.2, ?_, ?_⟩, h.refused, h.dialled⟩
    · apply List.countP_eq_length.mp
      rw [← h.ready, hr, hstage.2.2]
    · exact Nat.lt_succ_of_le h.time
  | cancel hm =>
    refine ⟨h.ready, h.time, fun _ hgo => ?_, h.refused, h.dialled⟩
    cases hgo
  | join hm he =>
    refine ⟨h.ready, Nat.le_succ_of_le h.time, fun ho hgo => ?_, h.refused, h.dialled⟩
    obtain ⟨hall, hcounted, htime⟩ := h.passed ho hgo
    exact ⟨hall, hcounted, Nat.lt_succ_of_lt htime⟩
  | abandon hm he => exact ⟨h.ready, h.time, h.passed, h.refused, h.dialled⟩

theorem gated_of_reachable (h : Reachable setup clock state) : Gated setup clock state := by
  refine invariant_of_moves ?_ ?_ ?_ h
  · refine ⟨rfl, Nat.le_refl _, fun ho => Bool.noConfusion ho, fun _ _ _ => Nat.zero_le _, ?_⟩
    intro index thread job ht
    simp at ht
  · exact fun reached hg hm => gated_mainMove (coherent_of_reachable reached) hg hm
  · exact fun reached hg ht hj hm => gated_clientMove (coherent_of_reachable reached) hg ht hj hm

/-- Unless the gate was opened for the run, no client has gone further than greeting. -/
theorem onlyGreets_of_reachable (h : Reachable setup clock state)
    (hgate : state.isOpen = true → state.cancelled = true) {index : Nat} {thread : Thread}
    {job : Job} (ht : state.clients[index]? = some thread) (hj : setup.jobs[index]? = some job) :
    thread.OnlyGreets job := by
  have hmay : state.MayDecide true := fun ho => (hgate ho).symm
  have hfinish := (coherent_of_reachable h).outcomes index thread job ht hj true hmay
  have hevents := (Thread.precedes_finish job true thread).events
  rw [hfinish] at hevents
  exact (sendsInTurn_greeting_leave job.target job.script).upTo hevents

/-- After a start that failed the gate is never opened for the run. -/
theorem cancelled_of_failing (h : Reachable setup clock state) {k : Nat}
    (hf : setup.failing = some k) (hk : k < setup.jobs.length) (ho : state.isOpen = true) :
    state.cancelled = true := by
  have hgated := gated_of_reachable h
  cases hc : state.cancelled with
  | true => rfl
  | false =>
    have hle := hgated.refused k hf hk
    rw [(hgated.passed ho hc).1] at hle
    omega

theorem returned_of_failing (h : Reachable setup clock state) {k : Nat}
    (hf : setup.failing = some k) (hk : k < setup.jobs.length) {attempt : Attempt}
    (hr : state.main = .returned attempt) :
    attempt.result = .error (.threadStart k) ∧ state.clients.length = k ∧
      ∀ thread ∈ state.clients, thread.isEnded = true := by
  have hstage := (coherent_of_reachable h).stage
  simp only [AtStage, hr] at hstage
  obtain ⟨ho, hended, ⟨hgo, _⟩ | ⟨_, hlast, rfl⟩⟩ := hstage
  · rw [cancelled_of_failing h hf hk ho] at hgo
    cases hgo
  · have hlen : state.clients.length = k := by
      rw [hf, Option.some.injEq] at hlast
      exact hlast.symm
    refine ⟨?_, hlen, List.all_eq_true.mp hended⟩
    simp only [abandoned, State.runs, List.length_map, hlen]

/-- A client that has not ended can make a step, except at the closed gate. -/
theorem exists_clientStep {index : Nat} {thread : Thread} {job : Job}
    (ht : state.clients[index]? = some thread) (hj : setup.jobs[index]? = some job)
    (hw : ∀ failure, thread.stage = .waiting failure → state.isOpen = true)
    (he : thread.isEnded = false) :
    ∃ after, next? setup (.client index) state = some after := by
  simp only [next?, stepClient?, ht, hj]
  cases hs : thread.stage with
  | waiting failure =>
    simp only [if_pos (hw failure hs)]
    exact ⟨_, rfl⟩
  | ended failure =>
    simp only [Thread.isEnded, hs] at he
    cases he
  | _ => exact ⟨_, rfl⟩

/-- At the open gate a client can make a step, or all have ended. -/
theorem exists_clientStep_or_ended (hc : Coherent setup state) (ho : state.isOpen = true) :
    state.clients.all Thread.isEnded = true ∨
      ∃ actor after, next? setup actor state = some after := by
  by_cases hall : state.clients.all Thread.isEnded = true
  · exact Or.inl hall
  · right
    rw [List.all_eq_true] at hall
    push Not at hall
    obtain ⟨thread, hm, he⟩ := hall
    obtain ⟨index, ht⟩ := List.getElem?_of_mem hm
    have hl : index < state.clients.length := (List.getElem?_eq_some_iff.mp ht).1
    have hj := List.getElem?_eq_getElem (Nat.lt_of_lt_of_le hl hc.started)
    exact ⟨_, exists_clientStep ht hj (fun _ _ => ho) (Bool.eq_false_iff.mpr he)⟩

/-- While the main thread waits for the count, a client that has not counted itself can make a
step. -/
theorem exists_clientStep_of_gathering (hc : Coherent setup state) (h : Gated setup clock state)
    (hlen : state.clients.length = setup.jobs.length) (hr : state.ready ≠ setup.jobs.length) :
    ∃ actor after, next? setup actor state = some after := by
  have hsome : ¬ ∀ thread ∈ state.clients, thread.hasCounted = true := by
    intro hall
    rw [h.ready, List.countP_eq_length.mpr hall, hlen] at hr
    exact hr rfl
  push Not at hsome
  obtain ⟨thread, hm, hn⟩ := hsome
  obtain ⟨index, ht⟩ := List.getElem?_of_mem hm
  have hl : index < state.clients.length := (List.getElem?_eq_some_iff.mp ht).1
  have hj := List.getElem?_eq_getElem (Nat.lt_of_lt_of_le hl hc.started)
  refine ⟨_, exists_clientStep ht hj ?_ ?_⟩
  · intro failure hs
    rw [Thread.hasCounted, hs] at hn
    exact absurd rfl hn
  · unfold Thread.isEnded
    split
    · rename_i failure hs
      rw [Thread.hasCounted, hs] at hn
      exact absurd rfl hn
    · rfl

/-- Until the run returns some thread can make a step. -/
theorem exists_step_of_reachable (h : Reachable setup clock state)
    (hr : ∀ attempt, state.main ≠ .returned attempt) :
    ∃ actor after, next? setup actor state = some after := by
  have hc := coherent_of_reachable h
  have hgated := gated_of_reachable h
  have hstage := hc.stage
  cases hm : state.main with
  | starting =>
    refine ⟨.main, ?_⟩
    simp only [next?, stepMain?, hm]
    split
    · exact ⟨_, rfl⟩
    · split
      · exact ⟨_, rfl⟩
      · exact ⟨_, rfl⟩
  | gathering =>
    simp only [AtStage, hm] at hstage
    by_cases hready : state.ready = setup.jobs.length
    · refine ⟨.main, ?_⟩
      simp only [next?, stepMain?, hm, if_pos hready]
      exact ⟨_, rfl⟩
    · exact exists_clientStep_of_gathering hc hgated hstage.2.2 hready
  | cancelling =>
    refine ⟨.main, ?_⟩
    simp only [next?, stepMain?, hm]
    exact ⟨_, rfl⟩
  | joining start =>
    simp only [AtStage, hm] at hstage
    rcases exists_clientStep_or_ended hc hstage.1 with hall | hstep
    · refine ⟨.main, ?_⟩
      simp only [next?, stepMain?, hm, if_pos hall]
      exact ⟨_, rfl⟩
    · exact hstep
  | abandoning =>
    simp only [AtStage, hm] at hstage
    rcases exists_clientStep_or_ended hc hstage.1 with hall | hstep
    · refine ⟨.main, ?_⟩
      simp only [next?, stepMain?, hm, if_pos hall]
      exact ⟨_, rfl⟩
    · exact hstep
  | returned attempt => exact absurd hm (hr attempt)

/-- Safety of the start gate, in every state of every interleaving. If some client has gone further
than greeting, then the time has been taken and every client has dialled. If the start of thread `k`
fails, no client ever goes further than greeting, and when the run returns it names `k` and each of the
`k` clients has ended. While the run has not returned, some thread can make a step. -/
theorem gate_safety {setup : Setup} {clock : Clock} {state : State}
    (h : Reachable setup clock state) :
    ((∃ (index : Nat) (thread : Thread) (job : Job), state.clients[index]? = some thread ∧
        setup.jobs[index]? = some job ∧ ¬ thread.OnlyGreets job) →
      clock.taken < state.clock.taken ∧
        ∀ (index : Nat) (job : Job), setup.jobs[index]? = some job →
          ∃ thread, state.clients[index]? = some thread ∧ thread.HasDialled job) ∧
    (∀ k, setup.failing = some k → k < setup.jobs.length →
      (∀ (index : Nat) (thread : Thread) (job : Job), state.clients[index]? = some thread →
        setup.jobs[index]? = some job → thread.OnlyGreets job) ∧
      ∀ attempt, state.main = .returned attempt →
        attempt.result = .error (.threadStart k) ∧ state.clients.length = k ∧
          ∀ thread ∈ state.clients, thread.isEnded = true) ∧
    ((∀ attempt, state.main ≠ .returned attempt) →
      ∃ actor after, next? setup actor state = some after) := by
  have hgated := gated_of_reachable h
  refine ⟨?_, ?_, exists_step_of_reachable h⟩
  · rintro ⟨index, thread, job, ht, hj, hmore⟩
    have hgo : state.isOpen = true ∧ state.cancelled = false := by
      by_contra hn
      refine hmore (onlyGreets_of_reachable h (fun ho => ?_) ht hj)
      exact eq_true_of_ne_false fun hc => hn ⟨ho, hc⟩
    obtain ⟨hall, hcounted, htime⟩ := hgated.passed hgo.1 hgo.2
    refine ⟨htime, fun other job' hj' => ?_⟩
    have hl : other < state.clients.length := by
      rw [hall]
      exact (List.getElem?_eq_some_iff.mp hj').1
    have ht' := List.getElem?_eq_getElem hl
    have hn := hcounted _ (List.getElem_mem hl)
    exact ⟨_, ht', hn, hgated.dialled other _ job' ht' hj' hn⟩
  · intro k hf hk
    refine ⟨fun index thread job ht hj => ?_, fun attempt hr => returned_of_failing h hf hk hr⟩
    exact onlyGreets_of_reachable h (cancelled_of_failing h hf hk) ht hj

/-- Two clients that take turns. After ten rounds the first has offered its command, so the second has
dialled and the time has been taken. If the second thread cannot be started, the run returns with that
error. -/
theorem gate_safety_two_clients :
    let setup := Setup.ofNetwork {} 2 .ping 2 { scripts := [{}, {}] }
    let rounds := (List.replicate 10 [Actor.main, .client 1, .client 0]).flatten
    let state := follow setup { clock := Clock.steady } rounds
    let stopped := follow { setup with failing := some 1 } { clock := Clock.steady } rounds
    (0 < state.clock.taken ∧
      ∃ job thread, setup.jobs[1]? = some job ∧ state.clients[1]? = some thread ∧
        thread.HasDialled job) ∧
    ∃ attempt, stopped.main = .returned attempt ∧ attempt.result = .error (.threadStart 1) := by
  intro setup rounds state stopped
  constructor
  · have hstate : Reachable setup Clock.steady state := reachable_follow .start rounds
    have hoffered : state.clients[0]?.any (fun thread => !(acceptedBytes thread.events).isEmpty) =
        true := by decide +kernel
    have hquiet : setup.jobs[0]?.any (fun job => (wire job.target.greeting).isEmpty) = true := by
      decide +kernel
    have hsecond : setup.jobs[1]?.isSome = true := by decide +kernel
    obtain ⟨hopen, _, _⟩ := gate_safety hstate
    clear_value state setup
    obtain ⟨thread, ht, hbytes⟩ := (Option.any_eq_true _ _).mp hoffered
    obtain ⟨job, hj, hnone⟩ := (Option.any_eq_true _ _).mp hquiet
    have hmore : ¬ thread.OnlyGreets job := by
      intro hgreets
      have haccepted := hgreets.accepted _ (List.prefix_refl _)
      rw [List.isEmpty_iff.mp hnone, List.prefix_nil] at haccepted
      rw [haccepted] at hbytes
      cases hbytes
    obtain ⟨htime, hall⟩ := hopen ⟨0, thread, job, ht, hj, hmore⟩
    obtain ⟨other, hother⟩ := Option.isSome_iff_exists.mp hsecond
    obtain ⟨thread', ht', hdialled⟩ := hall 1 other hother
    exact ⟨htime, other, thread', hother, ht', hdialled⟩
  · have hstopped : Reachable { setup with failing := some 1 } Clock.steady stopped :=
      reachable_follow .start rounds
    obtain ⟨_, hfail, _⟩ := gate_safety hstopped
    have hreturned : stopped.returned?.isSome = true := by decide +kernel
    have hlast := (hfail 1 rfl (by decide +kernel)).2
    clear_value stopped
    obtain ⟨attempt, hm⟩ := State.main_of_returned? hreturned
    exact ⟨attempt, hm, (hlast attempt hm).1⟩

end StartGate

end RespLoad
