import RespLoad.Proofs.Driver.Gate

/-!
# Every interleaving ends

A thread makes at most the calls that its client makes alone, and few steps between two calls; the
main thread starts each client once. So a number that is known before the run bounds the steps of any
interleaving of it, fair or not. No bound on the time that a step takes is claimed.
-/
namespace RespLoad

/-- How many calls a client makes alone. -/
def Job.calls (job : Job) : Nat := (job.outcome false).events.length

/-- A client that is cancelled makes no more calls than one that runs. -/
theorem Job.length_events_outcome (job : Job) (cancelled : Bool) :
    (job.outcome cancelled).events.length ≤ job.calls := by
  cases cancelled with
  | false => exact Nat.le_refl _
  | true =>
    show (job.target.dial job.script).leave.events.length ≤
      (job.target.runClient job.operation job.slice job.script).events.length
    cases hd : (job.target.dial job.script).result with
    | error cause => exact Nat.le_of_eq (by rw [runClient_of_error hd])
    | ok peer =>
      rw [runClient_of_ok hd]
      simp only [Dialled.leave, hd, Dialled.continueWith, List.length_append]
      omega

/-- A bound on the steps that a thread still makes: between two calls there are at most as many as
there are ranks. -/
def Thread.left (job : Job) (thread : Thread) : Nat :=
  6 * (job.calls - thread.events.length) + thread.stage.rank

theorem Thread.Advance.left_lt {job : Job} {thread later : Thread} (h : thread.Advance later)
    (hl : later.events.length ≤ job.calls) : later.left job < thread.left job := by
  have hrank := later.stage.rank_lt
  cases h with
  | call event he hc =>
    rw [he, List.length_append, List.length_singleton] at hl
    simp only [Thread.left, he, List.length_append, List.length_singleton]
    omega
  | quiet he hr hc =>
    simp only [Thread.left, he]
    omega

namespace StartGate

variable {setup : Setup} {clock : Clock} {state : State}

/-- A client gets nearer to its end with every move. -/
theorem left_of_clientMove {job : Job} {thread moved : Thread} {counted : Nat}
    (h : ClientMove job state thread moved counted) (hl : moved.events.length ≤ job.calls) :
    moved.left job < thread.left job := by
  cases h with
  | arrive hs =>
    have hrank : thread.stage.rank = 3 := by rw [hs]; rfl
    simp only [Thread.left, hrank]
    exact Nat.add_lt_add_left (by decide : 2 < 3) _
  | @pass failure hs ho =>
    have hrank : thread.stage.rank = 2 := by rw [hs]; rfl
    have hevents : (thread.released job failure state.cancelled).events = thread.events := by
      unfold Thread.released
      split
      · rfl
      · split <;> rfl
    have hlater : (thread.released job failure state.cancelled).stage.rank < 2 := by
      unfold Thread.released
      split
      · exact (by decide : 0 < 2)
      · split
        · exact (by decide : 0 < 2)
        · exact (by decide : 1 < 2)
    simp only [Thread.left, hrank, hevents]
    exact Nat.add_lt_add_left hlater _
  | work ha hw he => exact (Thread.advance_step job ha hw he).left_lt hl

/-- A bound on the steps of all clients together. A client that has not been started yet is counted
with the step that starts it. -/
def clientsLeft : List Job → List Thread → Nat
  | [], _ => 0
  | job :: jobs, [] => (Thread.start job).left job + 1 + clientsLeft jobs []
  | job :: jobs, thread :: threads => thread.left job + clientsLeft jobs threads

theorem clientsLeft_set {jobs : List Job} {threads : List Thread} {index : Nat} {job : Job}
    {thread moved : Thread} (ht : threads[index]? = some thread) (hj : jobs[index]? = some job)
    (hl : moved.left job < thread.left job) :
    clientsLeft jobs (threads.set index moved) < clientsLeft jobs threads := by
  induction threads generalizing jobs index with
  | nil => simp at ht
  | cons first threads ih =>
    cases jobs with
    | nil => simp at hj
    | cons job' jobs =>
      cases index with
      | zero =>
        cases ht
        cases hj
        exact Nat.add_lt_add_right hl _
      | succ index =>
        rw [List.getElem?_cons_succ] at ht hj
        exact Nat.add_lt_add_left (ih ht hj) _

theorem clientsLeft_start {jobs : List Job} {threads : List Thread} {job : Job}
    (hj : jobs[threads.length]? = some job) :
    clientsLeft jobs (threads ++ [Thread.start job]) + 1 = clientsLeft jobs threads := by
  induction threads generalizing jobs with
  | nil =>
    cases jobs with
    | nil => cases hj
    | cons job' jobs =>
      cases hj
      simp only [List.nil_append, clientsLeft]
      omega
  | cons first threads ih =>
    cases jobs with
    | nil => cases hj
    | cons job' jobs =>
      rw [List.length_cons, List.getElem?_cons_succ] at hj
      simp only [List.cons_append, clientsLeft, ← ih hj, Nat.add_assoc]

/-- How many steps the main thread still makes, those that start a client apart. -/
def MainStage.left : MainStage → Nat
  | .starting => 3
  | .gathering | .cancelling => 2
  | .joining _ | .abandoning => 1
  | .returned _ => 0

/-- A bound on the steps that are still to come. -/
def State.left (setup : Setup) (state : State) : Nat :=
  clientsLeft setup.jobs state.clients + state.main.left

theorem left_of_mainMove {after : State} (hm : MainMove setup state after) :
    after.left setup < state.left setup := by
  cases hm with
  | start hs hj hf =>
    have hmore := clientsLeft_start hj
    simp only [State.left]
    omega
  | refuse hs hj hf => simp only [State.left, hs, MainStage.left]; omega
  | gather hs hj => simp only [State.left, hs, MainStage.left]; omega
  | release hs hr => simp only [State.left, hs, MainStage.left]; omega
  | cancel hs => simp only [State.left, hs, MainStage.left]; omega
  | join hs he => simp only [State.left, hs, MainStage.left]; omega
  | abandon hs he => simp only [State.left, hs, MainStage.left]; omega

/-- Every step of every thread brings the run nearer to its end. -/
theorem left_of_next? {after : State} {actor : Actor} (h : Reachable setup clock state)
    (hn : next? setup actor state = some after) : after.left setup < state.left setup := by
  have hafter : Reachable setup clock after := .step actor h hn
  cases actor with
  | main => exact left_of_mainMove (mainMove_of_stepMain? hn)
  | client index =>
    obtain ⟨thread, job, moved, counted, ht, hj, hm, rfl⟩ := clientMove_of_stepClient? hn
    have hlen : index < state.clients.length := (List.getElem?_eq_some_iff.mp ht).1
    -- The bound on the calls is that of the state after the step, which counts the call just made.
    have hevents := (precedes_of_reachable hafter (List.getElem?_set_self hlen) hj).events
    have hcalls : moved.events.length ≤ job.calls :=
      Nat.le_trans hevents.length_le (job.length_events_outcome state.cancelled)
    exact Nat.add_lt_add_right (clientsLeft_set ht hj (left_of_clientMove hm hcalls)) _

/-- The state after one step of each of these actors, in order, if each can make it. -/
def walk? (setup : Setup) (state : State) : List Actor → Option State
  | [] => some state
  | actor :: more => (next? setup actor state).bind fun after => walk? setup after more

/-- A walk from a state that is reached stays among those, and its length is paid for. -/
theorem left_of_walk? {later : State} {schedule : List Actor} (h : Reachable setup clock state)
    (hw : walk? setup state schedule = some later) :
    Reachable setup clock later ∧ schedule.length + later.left setup ≤ state.left setup := by
  induction schedule generalizing state with
  | nil =>
    cases hw
    exact ⟨h, by simp⟩
  | cons actor more ih =>
    obtain ⟨after, hn, hmore⟩ := Option.bind_eq_some_iff.mp hw
    obtain ⟨hlater, hlength⟩ := ih (.step actor h hn) hmore
    have hstep := left_of_next? h hn
    refine ⟨hlater, ?_⟩
    rw [List.length_cons]
    omega

end StartGate

end RespLoad
