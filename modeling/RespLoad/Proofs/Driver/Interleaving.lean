import RespLoad.Proofs.Driver.Completion
import RespLoad.Driver.StartGate

/-!
# Threads in any order

The steps of the main thread and of a client, each with all that it requires and changes
(`MainMove`, `ClientMove`), and the invariant that they keep (`Coherent`): while the gate is closed
both decisions are open to it, and whatever it decides, a client that has been started will come to
what it would come to alone. Nothing is claimed here about when a thread makes a step.
-/
namespace RespLoad.StartGate

/-- What a step of a client makes of its thread, and by how much it raises the count at the gate. -/
inductive ClientMove (job : Job) (state : State) (thread : Thread) : Thread → Nat → Prop where
  | arrive {failure : Option OpenError} (hs : thread.stage = .arriving failure) :
      ClientMove job state thread (thread.goTo (.waiting failure)) 1
  | pass {failure : Option OpenError} (hs : thread.stage = .waiting failure)
      (ho : state.isOpen = true) :
      ClientMove job state thread (thread.released job failure state.cancelled) 0
  | work (ha : ∀ failure, thread.stage ≠ .arriving failure)
      (hw : ∀ failure, thread.stage ≠ .waiting failure) (he : thread.isEnded = false) :
      ClientMove job state thread (thread.step job) 0

/-- What a step of the main thread makes of the state. -/
inductive MainMove (setup : Setup) (state : State) : State → Prop where
  | start {job : Job} (hm : state.main = .starting)
      (hj : setup.jobs[state.clients.length]? = some job)
      (hf : setup.failing ≠ some state.clients.length) :
      MainMove setup state { state with clients := state.clients ++ [Thread.start job] }
  | refuse {job : Job} (hm : state.main = .starting)
      (hj : setup.jobs[state.clients.length]? = some job)
      (hf : setup.failing = some state.clients.length) :
      MainMove setup state { state with main := .cancelling }
  | gather (hm : state.main = .starting) (hj : setup.jobs[state.clients.length]? = none) :
      MainMove setup state { state with main := .gathering }
  | release (hm : state.main = .gathering) (hr : state.ready = setup.jobs.length) :
      MainMove setup state { state with
        main := .joining state.clock.read.1, clock := state.clock.read.2, isOpen := true }
  | cancel (hm : state.main = .cancelling) :
      MainMove setup state { state with main := .abandoning, isOpen := true, cancelled := true }
  | join {start : Int} (hm : state.main = .joining start)
      (he : state.clients.all Thread.isEnded = true) :
      MainMove setup state { state with
        main := .returned (Driver.merge setup.operation setup.iterations
          (state.clock.read.1 - start) (state.runs setup))
        clock := state.clock.read.2 }
  | abandon (hm : state.main = .abandoning) (he : state.clients.all Thread.isEnded = true) :
      MainMove setup state { state with main := .returned (abandoned setup state) }

theorem mainMove_of_stepMain? {setup : Setup} {state after : State}
    (h : stepMain? setup state = some after) : MainMove setup state after := by
  unfold stepMain? at h
  cases hm : state.main with
  | starting =>
    simp only [hm] at h
    cases hj : setup.jobs[state.clients.length]? with
    | none =>
      simp only [hj, Option.some.injEq] at h
      exact h ▸ .gather hm hj
    | some job =>
      simp only [hj] at h
      by_cases hf : setup.failing = some state.clients.length
      · simp only [if_pos hf, Option.some.injEq] at h
        exact h ▸ .refuse hm hj hf
      · simp only [if_neg hf, Option.some.injEq] at h
        have hs := MainMove.start hm hj hf
        rw [hm] at hs
        exact h ▸ hs
  | gathering =>
    simp only [hm] at h
    split at h
    · rename_i hr
      exact Option.some.inj h ▸ .release hm hr
    · cases h
  | cancelling =>
    simp only [hm, Option.some.injEq] at h
    exact h ▸ .cancel hm
  | joining start =>
    simp only [hm] at h
    split at h
    · rename_i he
      exact Option.some.inj h ▸ .join hm he
    · cases h
  | abandoning =>
    simp only [hm] at h
    split at h
    · rename_i he
      exact Option.some.inj h ▸ .abandon hm he
    · cases h
  | returned attempt =>
    simp only [hm] at h
    cases h

theorem clientMove_of_stepClient? {setup : Setup} {index : Nat} {state after : State}
    (h : stepClient? setup index state = some after) :
    ∃ thread job moved counted, state.clients[index]? = some thread ∧
      setup.jobs[index]? = some job ∧ ClientMove job state thread moved counted ∧
      after = { state with
        clients := state.clients.set index moved, ready := state.ready + counted } := by
  unfold stepClient? at h
  cases ht : state.clients[index]? with
  | none => simp only [ht] at h; cases h
  | some thread =>
    cases hj : setup.jobs[index]? with
    | none => simp only [ht, hj] at h; cases h
    | some job =>
      simp only [ht, hj] at h
      suffices hmove : ∃ moved counted, ClientMove job state thread moved counted ∧
          after = { state with
            clients := state.clients.set index moved, ready := state.ready + counted } by
        obtain ⟨moved, counted, hm, ha⟩ := hmove
        exact ⟨thread, job, moved, counted, rfl, rfl, hm, ha⟩
      split at h
      · rename_i failure hs
        exact ⟨_, _, .arrive hs, (Option.some.inj h).symm⟩
      · rename_i failure hs
        split at h
        · rename_i ho
          exact ⟨_, _, .pass hs ho, (Option.some.inj h).symm⟩
        · cases h
      · cases h
      · rename_i ha hw he
        have hn : thread.isEnded = false := by
          unfold Thread.isEnded
          split
          · rename_i failure hs
            exact absurd hs (he failure)
          · rfl
        exact ⟨_, _, .work ha hw hn, (Option.some.inj h).symm⟩

/-- The attempt that the main thread has returned, once it has. -/
def State.returned? (state : State) : Option Attempt :=
  match state.main with
  | .returned attempt => some attempt
  | _ => none

theorem State.main_of_returned? {state : State} (h : state.returned?.isSome = true) :
    ∃ attempt, state.main = .returned attempt := by
  unfold State.returned? at h
  cases hmain : state.main with
  | returned attempt => exact ⟨attempt, rfl⟩
  | _ => rw [hmain] at h; cases h

theorem State.run_of_returned? {state : State}
    (h : state.returned?.any (·.result.isOk) = true) :
    ∃ attempt run, state.main = .returned attempt ∧ attempt.result = .ok run := by
  unfold State.returned? at h
  cases hmain : state.main with
  | returned attempt =>
    cases hresult : attempt.result with
    | error cause => simp only [hmain, Option.any_some, hresult] at h; cases h
    | ok run => exact ⟨attempt, run, rfl, hresult⟩
  | _ => rw [hmain] at h; cases h

/-- A decision that the gate has taken, or may still take. -/
def State.MayDecide (state : State) (cancelled : Bool) : Prop :=
  state.isOpen = true → cancelled = state.cancelled

/-- What holds of the gate and of the clients while the main thread stands at its stage. The gate
opens once, and after that the decision is settled. -/
def AtStage (setup : Setup) (state : State) : Prop :=
  match state.main with
  | .starting => state.isOpen = false ∧ state.cancelled = false
  | .gathering => state.isOpen = false ∧ state.cancelled = false ∧
      state.clients.length = setup.jobs.length
  | .cancelling => state.isOpen = false ∧ setup.failing = some state.clients.length
  | .joining _ => state.isOpen = true ∧ state.cancelled = false ∧
      state.clients.length = setup.jobs.length
  | .abandoning => state.isOpen = true ∧ state.cancelled = true ∧
      setup.failing = some state.clients.length
  | .returned attempt => state.isOpen = true ∧ state.clients.all Thread.isEnded = true ∧
      ((state.cancelled = false ∧ state.clients.length = setup.jobs.length ∧
        ∃ elapsed, attempt =
          Driver.merge setup.operation setup.iterations elapsed (state.runs setup)) ∨
      (state.cancelled = true ∧ setup.failing = some state.clients.length ∧
        attempt = abandoned setup state))

/-- What holds in every state that is reached. -/
structure Coherent (setup : Setup) (state : State) : Prop where
  stage : AtStage setup state
  started : state.clients.length ≤ setup.jobs.length
  outcomes : ∀ (index : Nat) (thread : Thread) (job : Job),
    state.clients[index]? = some thread → setup.jobs[index]? = some job →
      ∀ cancelled, state.MayDecide cancelled →
        thread.finish job cancelled = job.outcome cancelled

/-- No move of a thread changes what it comes to under a decision that the gate may take. -/
theorem finish_of_clientMove {job : Job} {state : State} {thread moved : Thread} {counted : Nat}
    (h : ClientMove job state thread moved counted) {cancelled : Bool}
    (hc : state.MayDecide cancelled) :
    moved.finish job cancelled = thread.finish job cancelled := by
  cases h with
  | arrive hs => exact Thread.finish_arrived hs
  | pass hs ho =>
    rw [← hc ho]
    exact Thread.finish_released hs
  | work ha hw he => exact Thread.finish_step job cancelled thread

theorem isEnded_of_clientMove {job : Job} {state : State} {thread moved : Thread} {counted : Nat}
    (h : ClientMove job state thread moved counted) : thread.isEnded = false := by
  cases h with
  | arrive hs => simp only [Thread.isEnded, hs]
  | pass hs ho => simp only [Thread.isEnded, hs]
  | work ha hw he => exact he

/-- When the run has returned there is no client left to move. -/
theorem not_returned_of_clientMove {setup : Setup} {state : State} {index counted : Nat}
    {thread moved : Thread} {job : Job} (h : AtStage setup state)
    (ht : state.clients[index]? = some thread) (hm : ClientMove job state thread moved counted)
    (attempt : Attempt) : state.main ≠ .returned attempt := by
  intro hs
  simp only [AtStage, hs] at h
  have he := List.all_eq_true.mp h.2.1 thread (List.mem_of_getElem? ht)
  rw [isEnded_of_clientMove hm] at he
  cases he

theorem atStage_clientMove {setup : Setup} {state : State} {index counted : Nat}
    {thread moved : Thread} {job : Job} (h : AtStage setup state)
    (ht : state.clients[index]? = some thread) (hm : ClientMove job state thread moved counted) :
    AtStage setup { state with
      clients := state.clients.set index moved, ready := state.ready + counted } := by
  cases hs : state.main with
  | returned attempt => exact absurd hs (not_returned_of_clientMove h ht hm attempt)
  | _ => simpa only [AtStage, hs, List.length_set] using h

theorem coherent_clientMove {setup : Setup} {state : State} {index counted : Nat}
    {thread moved : Thread} {job : Job} (h : Coherent setup state)
    (ht : state.clients[index]? = some thread) (hj : setup.jobs[index]? = some job)
    (hm : ClientMove job state thread moved counted) :
    Coherent setup { state with
      clients := state.clients.set index moved, ready := state.ready + counted } := by
  refine ⟨atStage_clientMove h.stage ht hm, ?_, ?_⟩
  · rw [List.length_set]
    exact h.started
  · intro other thread' job' ht' hj' cancelled hc
    by_cases ho : index = other
    · subst ho
      have hl : index < state.clients.length := (List.getElem?_eq_some_iff.mp ht).1
      rw [List.getElem?_set_self hl, Option.some.injEq] at ht'
      rw [hj, Option.some.injEq] at hj'
      subst ht' hj'
      rw [finish_of_clientMove hm hc]
      exact h.outcomes index thread job ht hj cancelled hc
    · rw [List.getElem?_set_ne ho] at ht'
      exact h.outcomes other thread' job' ht' hj' cancelled hc

theorem atStage_mainMove {setup : Setup} {state after : State} (h : Coherent setup state)
    (hm : MainMove setup state after) : AtStage setup after := by
  have hstage := h.stage
  have hstarted := h.started
  cases hm with
  | start hs hj hf => simpa only [AtStage, hs] using hstage
  | refuse hs hj hf =>
    simp only [AtStage, hs] at hstage ⊢
    exact ⟨hstage.1, hf⟩
  | gather hs hj =>
    simp only [AtStage, hs] at hstage ⊢
    have hl := List.getElem?_eq_none_iff.mp hj
    exact ⟨hstage.1, hstage.2, Nat.le_antisymm hstarted hl⟩
  | release hs hr =>
    simp only [AtStage, hs] at hstage ⊢
    exact ⟨trivial, hstage.2⟩
  | cancel hs =>
    simp only [AtStage, hs] at hstage ⊢
    exact ⟨trivial, trivial, hstage.2⟩
  | join hs he =>
    simp only [AtStage, hs] at hstage ⊢
    exact ⟨hstage.1, he, Or.inl ⟨hstage.2.1, hstage.2.2, _, rfl⟩⟩
  | abandon hs he =>
    simp only [AtStage, hs] at hstage ⊢
    exact ⟨hstage.1, he, Or.inr ⟨hstage.2.1, hstage.2.2, rfl⟩⟩

/-- The main thread starts clients and decides at the gate. Until it decides, both decisions were
open, so the one that it takes was. -/
theorem mayDecide_of_mainMove {setup : Setup} {state after : State} (h : AtStage setup state)
    (hm : MainMove setup state after) {cancelled : Bool} (hc : after.MayDecide cancelled) :
    state.MayDecide cancelled := by
  intro ho
  cases hm with
  | release hs hr =>
    simp only [AtStage, hs] at h
    rw [h.1] at ho
    cases ho
  | cancel hs =>
    simp only [AtStage, hs] at h
    rw [h.1] at ho
    cases ho
  | _ => exact hc ho

theorem clients_of_mainMove {setup : Setup} {state after : State}
    (hm : MainMove setup state after) :
    after.clients = state.clients ∨ ∃ job, setup.jobs[state.clients.length]? = some job ∧
      after.clients = state.clients ++ [Thread.start job] := by
  cases hm with
  | start hs hj hf => exact Or.inr ⟨_, hj, rfl⟩
  | _ => exact Or.inl rfl

theorem coherent_mainMove {setup : Setup} {state after : State} (h : Coherent setup state)
    (hm : MainMove setup state after) : Coherent setup after := by
  have hd : ∀ cancelled, after.MayDecide cancelled → state.MayDecide cancelled :=
    fun _ hc => mayDecide_of_mainMove h.stage hm hc
  rcases clients_of_mainMove hm with hsame | ⟨job, hj, hmore⟩
  · refine ⟨atStage_mainMove h hm, by rw [hsame]; exact h.started, ?_⟩
    intro index thread job ht hj cancelled hc
    rw [hsame] at ht
    exact h.outcomes index thread job ht hj cancelled (hd cancelled hc)
  · have hl : state.clients.length < setup.jobs.length := (List.getElem?_eq_some_iff.mp hj).1
    refine ⟨atStage_mainMove h hm, ?_, ?_⟩
    · rw [hmore, List.length_append, List.length_singleton]
      exact hl
    · intro index thread job' ht hj' cancelled hc
      rw [hmore] at ht
      rcases Nat.lt_trichotomy index state.clients.length with hi | hi | hi
      · rw [List.getElem?_append_left hi] at ht
        exact h.outcomes index thread job' ht hj' cancelled (hd cancelled hc)
      · subst hi
        rw [List.getElem?_concat_length, Option.some.injEq] at ht
        rw [hj, Option.some.injEq] at hj'
        subst ht hj'
        exact Thread.finish_start job cancelled
      · have hn : (state.clients ++ [Thread.start job]).length ≤ index := by
          rw [List.length_append, List.length_singleton]
          exact hi
        rw [List.getElem?_eq_none hn] at ht
        cases ht

/-- What holds at the start and is kept by every move holds in every state that is reached. -/
theorem invariant_of_moves {setup : Setup} {clock : Clock} {holds : State → Prop}
    (hstart : holds { clock := clock })
    (hmain : ∀ {state after : State}, Reachable setup clock state → holds state →
      MainMove setup state after → holds after)
    (hclient : ∀ {state : State} {index counted : Nat} {thread moved : Thread} {job : Job},
      Reachable setup clock state → holds state → state.clients[index]? = some thread →
      setup.jobs[index]? = some job → ClientMove job state thread moved counted →
        holds { state with
          clients := state.clients.set index moved, ready := state.ready + counted })
    {state : State} (h : Reachable setup clock state) : holds state := by
  induction h with
  | start => exact hstart
  | step actor reached stepped ih =>
    cases actor with
    | main => exact hmain reached ih (mainMove_of_stepMain? stepped)
    | client index =>
      obtain ⟨thread, job, moved, counted, ht, hj, hm, rfl⟩ :=
        clientMove_of_stepClient? stepped
      exact hclient reached ih ht hj hm

theorem coherent_of_reachable {setup : Setup} {clock : Clock} {state : State}
    (h : Reachable setup clock state) : Coherent setup state := by
  refine invariant_of_moves ?_ ?_ ?_ h
  · exact ⟨⟨rfl, rfl⟩, Nat.zero_le _, fun index thread job ht => by simp at ht⟩
  · exact fun _ hc hm => coherent_mainMove hc hm
  · exact fun _ hc ht hj hm => coherent_clientMove hc ht hj hm

theorem reachable_follow {setup : Setup} {clock : Clock} {state : State}
    (h : Reachable setup clock state) (schedule : List Actor) :
    Reachable setup clock (follow setup state schedule) := by
  induction schedule generalizing state with
  | nil => exact h
  | cons actor more ih =>
    show Reachable setup clock (follow setup ((next? setup actor state).getD state) more)
    apply ih
    cases hn : next? setup actor state with
    | none => exact h
    | some after => exact .step actor h hn

/-- In whatever order the threads run, the calls and the exchanges of a client are the first of those
that it makes alone. -/
theorem precedes_of_reachable {setup : Setup} {clock : Clock} {state : State}
    (h : Reachable setup clock state) {index : Nat} {thread : Thread} {job : Job}
    (ht : state.clients[index]? = some thread) (hj : setup.jobs[index]? = some job) :
    thread.Precedes (job.outcome state.cancelled) := by
  rw [← (coherent_of_reachable h).outcomes index thread job ht hj state.cancelled fun _ => rfl]
  exact Thread.precedes_finish job state.cancelled thread

/-- A thread that has ended came to what its client comes to alone. -/
theorem result_of_reachable {setup : Setup} {clock : Clock} {state : State}
    (h : Reachable setup clock state) {index : Nat} {thread : Thread} {job : Job}
    (ht : state.clients[index]? = some thread) (hj : setup.jobs[index]? = some job)
    (he : thread.isEnded = true) :
    thread.result job.operation = job.outcome state.cancelled := by
  rw [← (coherent_of_reachable h).outcomes index thread job ht hj state.cancelled fun _ => rfl]
  unfold Thread.isEnded at he
  split at he
  · rename_i failure hs
    simp only [Thread.result, Thread.failure?, Thread.finish, Thread.conclude, hs]
  · cases he

end RespLoad.StartGate
