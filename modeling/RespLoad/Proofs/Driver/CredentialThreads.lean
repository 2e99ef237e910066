import RespLoad.Proofs.Driver.Credentials
import RespLoad.Proofs.Driver.LoggingThreads

/-!
# Credentials in threads

Threads that dial targets which differ in the credentials only go in lockstep: whatever the order in which
those of the one run take their turns, those of the other can take theirs in the same order, and report
the same as they go. So a call of a driver that writes its log has its counterpart, which has written the
same entries in the same order.
-/
namespace RespLoad

/-- The job with another target. -/
def Job.withTarget (job : Job) (target : Target) : Job := { job with target := target }

/-- The setup with another target in each job. -/
def StartGate.Setup.withTarget (setup : Setup) (target : Target) : Setup :=
  { setup with jobs := setup.jobs.map fun job => job.withTarget target }

/-- Two clients are at the same place, which in the greeting is a place in two payloads. -/
inductive Stage.SameBut (p q : Bytes) : Stage → Stage → Prop
  | same (stage : Stage) : SameBut p q stage stage
  | greeting (place : Nat) :
      SameBut p q (.talking .greeting (p.drop place)) (.talking .greeting (q.drop place))

/-- Two clients have come equally far. -/
structure Thread.SameBut (p q : Bytes) (a b : Thread) : Prop where
  stage : a.stage.SameBut p q b.stage
  peer : a.peer = b.peer
  clock : a.clock = b.clock
  calls : SameCallsBut p q a.events b.events
  exchanges : a.exchanges = b.exchanges
  log : a.log = b.log

/-- The main threads are at the same stage, and have both returned if one has. -/
inductive StartGate.MainStage.SameStage : MainStage → MainStage → Prop
  | same (stage : MainStage) : SameStage stage stage
  | returned (attempt other : Attempt) : SameStage (.returned attempt) (.returned other)

/-- The threads of two runs have come equally far. -/
structure StartGate.State.SameBut (p q : Bytes) (a b : State) : Prop where
  main : a.main.SameStage b.main
  clock : a.clock = b.clock
  clients : List.Forall₂ (Thread.SameBut p q) a.clients b.clients
  ready : a.ready = b.ready
  isOpen : a.isOpen = b.isOpen
  cancelled : a.cancelled = b.cancelled

/-- Elements at the same index of related lists are related. -/
theorem rel_getElem? {α β : Type} {r : α → β → Prop} {as : List α} {bs : List β}
    (h : List.Forall₂ r as bs) (index : Nat) : Option.Rel r as[index]? bs[index]? := by
  induction h generalizing index with
  | nil => exact .none
  | cons hfirst hrest ih =>
    cases index with
    | zero => exact .some hfirst
    | succ index => exact ih index

theorem forall₂_set {α β : Type} {r : α → β → Prop} {as : List α} {bs : List β} {a : α} {b : β}
    (h : List.Forall₂ r as bs) (hab : r a b) (index : Nat) :
    List.Forall₂ r (as.set index a) (bs.set index b) := by
  induction h generalizing index with
  | nil => exact .nil
  | cons hfirst hrest ih =>
    cases index with
    | zero => exact .cons hab hrest
    | succ index => exact .cons hfirst (ih index)

section Frames

variable {p q : Bytes}

theorem Stage.SameBut.eq_or_greeting {a b : Stage} (h : a.SameBut p q b) :
    a = b ∨ ∃ place, a = .talking .greeting (p.drop place) ∧
      b = .talking .greeting (q.drop place) := by
  cases h with
  | same stage => exact .inl rfl
  | greeting place => exact .inr ⟨place, rfl, rfl⟩

theorem closeIfMade_sameBut {events events' : List Event} (h : SameCallsBut p q events events') :
    closeIfMade events = closeIfMade events' := by
  cases h with
  | nil => rfl
  | cons hfirst hrest =>
    cases hfirst with
    | same =>
      rename_i event _ _
      cases event with
      | socket failure => cases failure <;> rfl
      | _ => rfl
    | sent place outcome => rfl

namespace Thread.SameBut

variable {a b : Thread}

theorem withStage (h : a.SameBut p q b) {stage stage' : Stage} (hs : stage.SameBut p q stage') :
    (a.goTo stage).SameBut p q (b.goTo stage') :=
  ⟨hs, h.peer, h.clock, h.calls, h.exchanges, h.log⟩

theorem goTo (h : a.SameBut p q b) (stage : Stage) :
    (a.goTo stage).SameBut p q (b.goTo stage) := h.withStage (.same stage)

theorem called (h : a.SameBut p q b) {event event' : Event} (he : SameCallBut p q event event') :
    (a.called event).SameBut p q (b.called event') :=
  ⟨h.stage, h.peer, h.clock, List.rel_append h.calls (.cons he .nil), h.exchanges, h.log⟩

theorem withPeer (h : a.SameBut p q b) (peer : Peer) :
    { a with peer := peer }.SameBut p q { b with peer := peer } :=
  ⟨h.stage, rfl, h.clock, h.calls, h.exchanges, h.log⟩

theorem withLog (h : a.SameBut p q b) (log : List LogEntry) :
    { a with log := log }.SameBut p q { b with log := log } :=
  ⟨h.stage, h.peer, h.clock, h.calls, h.exchanges, rfl⟩

theorem isEnded_eq (h : a.SameBut p q b) : a.isEnded = b.isEnded := by
  obtain ⟨stage, _, _, _, _, _⟩ := a
  obtain ⟨stage', _, _, _, _, _⟩ := b
  cases h.stage <;> rfl

theorem failure_eq (h : a.SameBut p q b) : a.failure? = b.failure? := by
  obtain ⟨stage, _, _, _, _, _⟩ := a
  obtain ⟨stage', _, _, _, _, _⟩ := b
  cases h.stage <;> rfl

theorem released (h : a.SameBut p q b) (job : Job) (target other : Target)
    (failure : Option OpenError) (cancelled : Bool) :
    (a.released (job.withTarget target) failure cancelled).SameBut p q
      (b.released (job.withTarget other) failure cancelled) := by
  cases failure with
  | some cause => exact h.goTo _
  | none => cases cancelled <;> exact h.goTo _

end Thread.SameBut

end Frames

namespace Target.SameButCredentials

variable {a b : Target} (h : a.SameButCredentials b)

include h

theorem answered (job : Job) {thread other : Thread} (hs : thread.SameBut a.frame b.frame other)
    (purpose : Purpose) (reply : Bytes) :
    (thread.answered (job.withTarget a) purpose reply).SameBut a.frame b.frame
      (other.answered (job.withTarget b) purpose reply) := by
  cases purpose with
  | greeting =>
    simp only [Thread.answered, Job.withTarget, h.endpoint]
    split
    · exact hs.goTo _
    · exact hs.goTo _
  | iteration index started =>
    simp only [Thread.answered, hs.clock, hs.exchanges]
    exact ⟨.same _, hs.peer, rfl, hs.calls, rfl, hs.log⟩

theorem stepRead (job : Job) {thread other : Thread} (hs : thread.SameBut a.frame b.frame other)
    (purpose : Purpose) :
    (thread.stepRead (job.withTarget a) purpose).SameBut a.frame b.frame
      (other.stepRead (job.withTarget b) purpose) := by
  have hpeer := hs.peer
  obtain ⟨⟨outcome, peer⟩, hone⟩ : ∃ pair, other.peer.readOnce = pair := ⟨_, rfl⟩
  have hcalled := (hs.withPeer peer).called (.same (.receive outcome))
  simp only [Thread.stepRead, hpeer, hone]
  cases outcome with
  | data reply => exact h.answered job hcalled purpose reply
  | fail errno =>
    dsimp only
    split
    · exact hcalled
    · exact hcalled.goTo _

omit h in
/-- One send of two rests that are equally long, where the calls and the stages behind them are the same
but for the frames. -/
theorem stepSend (job : Job) {thread other : Thread} (hs : thread.SameBut a.frame b.frame other)
    (purpose : Purpose) {unsent unsent' : Bytes} (hlength : unsent.length = unsent'.length)
    (hcall : ∀ outcome, SameCallBut a.frame b.frame (.send unsent outcome) (.send unsent' outcome))
    (hnext : ∀ count, Stage.SameBut a.frame b.frame (.talking purpose (unsent.drop count))
      (.talking purpose (unsent'.drop count))) :
    (thread.stepSend (job.withTarget a) purpose unsent).SameBut a.frame b.frame
      (other.stepSend (job.withTarget b) purpose unsent') := by
  have hsend : thread.peer.sendOnce unsent = other.peer.sendOnce unsent' := by
    simp only [Peer.sendOnce, hs.peer, hlength]
  obtain ⟨⟨outcome, peer⟩, hone⟩ : ∃ pair, other.peer.sendOnce unsent' = pair := ⟨_, rfl⟩
  have hcalled := (hs.withPeer peer).called (hcall outcome)
  simp only [Thread.stepSend, hsend, hone]
  cases outcome with
  | accept count =>
    exact hcalled.withStage (hnext count)
  | fail errno =>
    dsimp only
    split
    · exact hcalled
    · exact hcalled.goTo _

/-- In the greeting the clients are at the same place of their frames, and else they are alike. -/
theorem step (job : Job) {thread other : Thread} (hs : thread.SameBut a.frame b.frame other) :
    (thread.step (job.withTarget a)).SameBut a.frame b.frame (other.step (job.withTarget b)) := by
  -- Only in the greeting the stages can differ, by what is left of the two frames.
  rcases hs.stage.eq_or_greeting with heq | ⟨place, hp, hq⟩
  · unfold Thread.step
    rw [heq]
    cases hstage : other.stage with
    | resolving =>
      simp only [Job.withTarget, h.endpoint, h.preparations]
      split
      · exact hs.goTo _
      · exact hs.goTo _
    | preparing calls =>
      cases calls with
      | nil => exact hs.goTo _
      | cons call more =>
        have hcalled := hs.called (.same call.1)
        simp only [Job.withTarget, h.endpoint, closeIfMade_sameBut hcalled.calls]
        split
        · exact hcalled.goTo _
        · split
          · exact hcalled.goTo _
          · exact hcalled.goTo _
    | tuning =>
      have hcalled := (hs.called (.same (.noDelay job.script.faults.noDelay))).withLog
        (b.connectedLog job.script.faults.noDelay)
      cases hp : b.password.isEmpty with
      | true =>
        simp only [Job.withTarget, h.connectedLog, h.password_isEmpty, hp, if_true]
        exact hcalled.goTo _
      | false =>
        have hframe := frame_of_password (h.password_isEmpty.trans hp)
        simp only [Job.withTarget, h.connectedLog, h.password_isEmpty, hp, Bool.false_eq_true,
          if_false, ← hframe, ← frame_of_password hp]
        exact hcalled.withStage (.greeting 0)
    | talking purpose unsent =>
      dsimp only
      split
      · exact h.stepRead job hs purpose
      · exact stepSend job hs purpose rfl (fun _ => .same _) (fun _ => .same _)
    | looping index =>
      by_cases hmore : index < job.slice.first + job.slice.count
      · simp only [Job.withTarget, hmore, if_true, hs.clock]
        exact ⟨.same _, hs.peer, rfl, hs.calls, hs.exchanges, hs.log⟩
      · simp only [Job.withTarget, hmore, if_false]
        exact hs.goTo _
    | dropping cause | leaving failure => exact (hs.called (.same .close)).goTo _
    | arriving failure | waiting failure | ended failure => exact hs
  · have hlength := length_drop_congr h.length_frame place
    simp only [Thread.step, hp, hq, isEmpty_congr hlength]
    split
    · exact h.stepRead job hs .greeting
    · refine stepSend job hs .greeting hlength (fun _ => .sent place _) fun count => ?_
      rw [List.drop_drop, List.drop_drop]
      exact .greeting _

theorem reports (job : Job) {thread other : Thread} (hs : thread.SameBut a.frame b.frame other) :
    thread.reports (job.withTarget a) = other.reports (job.withTarget b) := by
  rcases hs.stage.eq_or_greeting with heq | ⟨place, hp, hq⟩
  · simp only [Thread.reports, Job.withTarget, heq, hs.peer, hs.clock, hs.exchanges,
      h.connectedLog]
  · simp only [Thread.reports, hp, hq]

end Target.SameButCredentials

namespace StartGate

section Runs

variable {p q : Bytes} {clients others : List Thread}

theorem all_isEnded_of_sameBut (h : List.Forall₂ (Thread.SameBut p q) clients others) :
    clients.all Thread.isEnded = others.all Thread.isEnded := by
  induction h with
  | nil => rfl
  | cons hfirst hrest ih => rw [List.all_cons, List.all_cons, hfirst.isEnded_eq, ih]

theorem runs_of_sameBut (h : List.Forall₂ (Thread.SameBut p q) clients others)
    (operation : Operation) :
    let runs := clients.map fun thread => thread.result operation
    let others := others.map fun thread => thread.result operation
    runs.map ClientRun.failure = others.map ClientRun.failure ∧
      runs.map ClientRun.exchanges = others.map ClientRun.exchanges := by
  intro runs others
  have hruns : List.Forall₂ (fun run other : ClientRun =>
      run.failure = other.failure ∧ run.exchanges = other.exchanges) runs others := by
    rw [List.forall₂_map_left_iff, List.forall₂_map_right_iff]
    exact h.imp fun _ _ hthread => ⟨hthread.failure_eq, hthread.exchanges⟩
  exact ⟨map_eq_of_forall₂ (fun _ _ hrun => hrun.1) hruns,
    map_eq_of_forall₂ (fun _ _ hrun => hrun.2) hruns⟩

end Runs

theorem Setup.getElem?_withTarget (setup : Setup) (target : Target) (index : Nat) :
    (setup.withTarget target).jobs[index]? =
      setup.jobs[index]?.map fun job => job.withTarget target := List.getElem?_map

theorem Setup.length_withTarget (setup : Setup) (target : Target) :
    (setup.withTarget target).jobs.length = setup.jobs.length := List.length_map _

section Lockstep

variable {a b : Target} (h : a.SameButCredentials b) (setup : Setup) {state other : State}

theorem stepMain_sameBut (hs : state.SameBut a.frame b.frame other) :
    Option.Rel (State.SameBut a.frame b.frame) (stepMain? (setup.withTarget a) state)
      (stepMain? (setup.withTarget b) other) := by
  obtain ⟨main, clock, clients, ready, isOpen, cancelled⟩ := state
  obtain ⟨main', clock', clients', ready', isOpen', cancelled'⟩ := other
  obtain ⟨hmain, rfl, hclients, rfl, rfl, rfl⟩ := hs
  have hcount := hclients.length_eq
  have hended := all_isEnded_of_sameBut hclients
  have hmove : ∀ {stage stage' : MainStage} (now : Clock) (opened cancels : Bool),
      stage.SameStage stage' → Option.Rel (State.SameBut a.frame b.frame)
        (some ⟨stage, now, clients, ready, opened, cancels⟩)
        (some ⟨stage', now, clients', ready, opened, cancels⟩) :=
    fun _ _ _ hstage => .some ⟨hstage, rfl, hclients, rfl, rfl, rfl⟩
  cases hmain with
  | returned => exact .none
  | same =>
    cases main with
    | starting =>
      simp only [stepMain?, Setup.getElem?_withTarget, hcount]
      cases setup.jobs[clients'.length]? with
      | none => exact hmove _ _ _ (.same _)
      | some job =>
        have hstart : (Thread.start (job.withTarget a)).SameBut a.frame b.frame
            (Thread.start (job.withTarget b)) := ⟨.same _, rfl, rfl, .nil, rfl, rfl⟩
        by_cases hfails : setup.failing = some clients'.length
        · simp only [Option.map_some, Setup.withTarget, hfails, if_true]
          exact hmove _ _ _ (.same _)
        · simp only [Option.map_some, Setup.withTarget, hfails, if_false]
          exact .some ⟨.same _, rfl, List.rel_append hclients (.cons hstart .nil), rfl, rfl, rfl⟩
    | gathering =>
      by_cases hall : ready = setup.jobs.length
      · simp only [stepMain?, Setup.length_withTarget, hall, if_true]
        exact hall ▸ hmove _ _ _ (.same _)
      · simp only [stepMain?, Setup.length_withTarget, hall, if_false]
        exact .none
    | cancelling => exact hmove _ _ _ (.same _)
    | joining _ | abandoning =>
      cases hall : clients'.all Thread.isEnded with
      | true =>
        simp only [stepMain?, hended, hall, if_true]
        exact hmove _ _ _ (.returned _ _)
      | false =>
        simp only [stepMain?, hended, hall, Bool.false_eq_true, if_false]
        exact .none
    | returned attempt => exact .none

include h

theorem stepClient_sameBut (hs : state.SameBut a.frame b.frame other) (index : Nat) :
    Option.Rel (State.SameBut a.frame b.frame) (stepClient? (setup.withTarget a) index state)
      (stepClient? (setup.withTarget b) index other) := by
  obtain ⟨main, clock, clients, ready, isOpen, cancelled⟩ := state
  obtain ⟨main', clock', clients', ready', isOpen', cancelled'⟩ := other
  obtain ⟨hmain, rfl, hclients, rfl, rfl, rfl⟩ := hs
  have hset : ∀ {moved moved' : Thread} (counted : Nat), moved.SameBut a.frame b.frame moved' →
      Option.Rel (State.SameBut a.frame b.frame)
        (some ⟨main, clock, clients.set index moved, ready + counted, isOpen, cancelled⟩)
        (some ⟨main', clock, clients'.set index moved', ready + counted, isOpen, cancelled⟩) :=
    fun _ hmoved => .some ⟨hmain, rfl, forall₂_set hclients hmoved index, rfl, rfl, rfl⟩
  have hclient := rel_getElem? hclients index
  simp only [stepClient?, Setup.getElem?_withTarget]
  generalize clients[index]? = found at hclient ⊢
  generalize clients'[index]? = found' at hclient ⊢
  cases hclient with
  | none => exact .none
  | some hthread =>
    cases setup.jobs[index]? with
    | none => exact .none
    | some job =>
      have hworks := hset 0 (h.step job hthread)
      rename_i thread thread'
      rcases hthread.stage.eq_or_greeting with heq | ⟨place, hp, hq⟩
      · simp only [Option.map_some, heq]
        cases thread'.stage with
        | arriving failure => exact hset 1 (hthread.goTo (.waiting failure))
        | waiting failure =>
          cases isOpen with
          | true => exact hset 0 (hthread.released job a b failure cancelled)
          | false => exact .none
        | ended failure => exact .none
        | _ => exact hworks
      · simp only [Option.map_some, hp, hq]
        exact hworks

theorem reports_sameBut (hs : state.SameBut a.frame b.frame other) (actor : Actor) :
    state.reports (setup.withTarget a) actor = other.reports (setup.withTarget b) actor := by
  cases actor with
  | main =>
    obtain ⟨hfailures, hexchanges⟩ := runs_of_sameBut hs.clients setup.operation
    have hmain := hs.main
    unfold State.reports
    generalize state.main = stage at hmain ⊢
    generalize other.main = stage' at hmain ⊢
    cases hmain with
    | returned => rfl
    | same =>
      cases stage with
      | joining start =>
        simp only [State.runs, Setup.withTarget, Driver.firstFailure_congr hfailures,
          List.flatMap_def, hexchanges, List.length_map, hs.clients.length_eq]
      | _ => rfl
  | client index =>
    have hclient := rel_getElem? hs.clients index
    simp only [State.reports, Setup.getElem?_withTarget]
    generalize state.clients[index]? = found at hclient ⊢
    generalize other.clients[index]? = found' at hclient ⊢
    cases hclient with
    | none => rfl
    | some hthread =>
      cases setup.jobs[index]? with
      | none => rfl
      | some job => exact h.reports job hthread

theorem next_sameBut (hs : state.SameBut a.frame b.frame other) (actor : Actor) :
    Option.Rel (State.SameBut a.frame b.frame) (next? (setup.withTarget a) actor state)
      (next? (setup.withTarget b) actor other) := by
  cases actor with
  | main => exact stepMain_sameBut setup hs
  | client index => exact stepClient_sameBut h setup hs index

/-- Each state that the one run reaches has its counterpart, in which the logger has been given the same
entries. -/
theorem exists_reachableLogging_sameBut {clock : Clock} {logger current : Logger}
    (hreached : ReachableLogging (setup.withTarget a) clock logger state current) :
    ∃ other, ReachableLogging (setup.withTarget b) clock logger other current ∧
      state.SameBut a.frame b.frame other := by
  induction hreached with
  | start => exact ⟨_, .start, .same _, rfl, .nil, rfl, rfl, rfl⟩
  | @step state after current actor reached stepped ih =>
    obtain ⟨other, hother, hs⟩ := ih
    have hnext := next_sameBut h setup hs actor
    rw [stepped] at hnext
    obtain ⟨later, hlater, hsame⟩ : ∃ later, next? (setup.withTarget b) actor other = some later ∧
        after.SameBut a.frame b.frame later := by
      generalize next? (setup.withTarget b) actor other = found at hnext
      cases hnext with
      | some hsame => exact ⟨_, rfl, hsame⟩
    refine ⟨later, ?_, hsame⟩
    -- Both loggers are given the same, so they are one.
    rw [reports_sameBut h setup hs actor]
    exact .step actor hother hlater

end Lockstep

/-- The setups of one network for two targets differ in the target only. -/
theorem Setup.withTarget_ofNetwork (target other : Target) (clients : Nat) (operation : Operation)
    (iterations : Nat) (network : Network) :
    (Setup.ofNetwork target clients operation iterations network).withTarget other =
      .ofNetwork other clients operation iterations network := by
  simp only [withTarget, ofNetwork, List.map_zipWith, Job.withTarget]

end StartGate

/-- Two calls that write their log came to the same, and have written the same. -/
structure LoggedCall.SameBut (first second : Target) (a b : LoggedCall) : Prop where
  result : a.result = b.result
  connections : List.Forall₂ (first.SameConnection second) a.connections b.connections
  network : a.network = b.network
  logger : a.logger = b.logger

/-- Each way in which a call can go has its counterpart with the other credentials. -/
theorem Target.SameButCredentials.callsLogging {a b : Target} (h : a.SameButCredentials b)
    {driver : Driver} {operation : Operation} {iterations : Nat} {network : Network}
    {logger : Logger} {call : LoggedCall}
    (hcall : Driver.CallsLogging a operation iterations network logger driver call) :
    ∃ other, Driver.CallsLogging b operation iterations network logger driver other ∧
      call.SameBut a b other := by
  cases hcall with
  | tooMany _ hlimit => exact ⟨_, .tooMany driver hlimit, rfl, .nil, rfl, rfl⟩
  | sequential hlimit =>
    refine ⟨_, .sequential hlimit, ?_⟩
    obtain ⟨hattempt, hnetwork⟩ := h.runSequential operation iterations network
    rw [Driver.runSequentialLogging_eq, Driver.runSequentialLogging_eq]
    exact ⟨hattempt.result, hattempt.connections, hnetwork, congrArg logger.logEach hattempt.log⟩
  | @concurrent others hlimit state attempt after reached returned =>
    have hsetup := StartGate.Setup.withTarget_ofNetwork a a (others + 1) operation iterations network
    rw [← hsetup] at reached
    obtain ⟨state', hreached', hs⟩ := StartGate.exists_reachableLogging_sameBut h _ reached
    rw [hsetup] at reached
    rw [StartGate.Setup.withTarget_ofNetwork] at hreached'
    obtain ⟨attempt', returned'⟩ : ∃ attempt', state'.main = .returned attempt' := by
      have hmain := hs.main
      rw [returned] at hmain
      generalize state'.main = stage at hmain
      cases hmain with
      | same => exact ⟨_, rfl⟩
      | returned => exact ⟨_, rfl⟩
    refine ⟨_, .concurrent hlimit hreached' returned', ?_⟩
    -- The lockstep carries the logger; the rest is what any order of the threads comes to.
    obtain ⟨hattempt, hnetwork⟩ := h.runConcurrent (others + 1) operation iterations network
    obtain rfl := StartGate.attempt_of_returned reached.reachable returned
    obtain rfl := StartGate.attempt_of_returned hreached'.reachable returned'
    rw [StartGate.leaves_of_returned reached.reachable returned,
      StartGate.leaves_of_returned hreached'.reachable returned']
    exact ⟨hattempt.result, hattempt.connections, hnetwork, rfl⟩

end RespLoad
