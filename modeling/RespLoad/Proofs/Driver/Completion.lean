import RespLoad.Proofs.Connection.Calls
import RespLoad.Proofs.Driver.Client

/-!
# What a thread will come to

`Thread.finish` says of a thread at any stage what it will have come to in the end, if the gate lets
it through or cancels it. No step of the thread changes that (`finish_step`), so a thread that is
interleaved with others comes to what it would come to alone.
-/
namespace RespLoad

/-- What a client comes to alone, if it is cancelled at the gate and if it is not. -/
def Job.outcome (job : Job) (cancelled : Bool) : ClientRun :=
  if cancelled then (job.target.dial job.script).leave
  else job.target.runClient job.operation job.slice job.script

namespace Thread

/-- What a thread comes to that makes no further call. -/
def conclude (job : Job) (thread : Thread) (failure : Option ClientError) : ClientRun where
  failure := failure
  exchanges := thread.exchanges
  events := thread.events
  log := thread.log ++ Exchange.warnings job.operation thread.exchanges

def finishLeaving (job : Job) (thread : Thread) (failure : Option IterationError) : ClientRun :=
  (thread.called .close).conclude job (failure.map .iteration)

def finishLooping (job : Job) (thread : Thread) (index : Nat) : ClientRun :=
  let count := job.slice.first + job.slice.count - index
  let work := job.operation.iterate count index thread.peer thread.clock
  let after := { thread with
    events := thread.events ++ work.events
    exchanges := thread.exchanges ++ work.exchanges }
  after.finishLeaving job work.failure

def finishWaiting (job : Job) (cancelled : Bool) (thread : Thread) :
    Option OpenError → ClientRun
  | some cause => thread.conclude job (some (.connection cause))
  | none =>
    if cancelled then thread.finishLeaving job none
    else thread.finishLooping job job.slice.first

def finishDropping (job : Job) (cancelled : Bool) (thread : Thread) (cause : OpenError) :
    ClientRun :=
  (thread.called .close).finishWaiting job cancelled (some cause)

def finishGreeted (job : Job) (cancelled : Bool) (thread : Thread) :
    Except IoError Bytes → ClientRun
  | .error cause => thread.finishDropping job cancelled (.authFailed cause)
  | .ok reply =>
    if ReplyKind.ofBytes reply = .simpleString then thread.finishWaiting job cancelled none
    else thread.finishDropping job cancelled (.authRejected job.target.endpoint (rejection reply))

def finishIteration (job : Job) (thread : Thread) (index : Nat) (started : Int) :
    Except IoError Bytes → ClientRun
  | .error cause => thread.finishLeaving job (some ⟨job.operation, index, cause⟩)
  | .ok reply =>
    let exchange : Exchange := ⟨index, started, thread.clock.read.1, reply⟩
    let after := { thread with
      clock := thread.clock.read.2
      exchanges := thread.exchanges ++ [exchange] }
    after.finishLooping job (index + 1)

def finishTalking (job : Job) (cancelled : Bool) (thread : Thread) (purpose : Purpose)
    (unsent : Bytes) : ClientRun :=
  let answer := thread.peer.finishRoundTrip unsent
  let after := { thread with peer := answer.peer, events := thread.events ++ answer.events }
  match purpose with
  | .greeting => after.finishGreeted job cancelled answer.result
  | .iteration index started => after.finishIteration job index started answer.result

def finishTuning (job : Job) (cancelled : Bool) (thread : Thread) : ClientRun :=
  let after := { thread.called (.noDelay job.script.faults.noDelay) with
    log := job.target.connectedLog job.script.faults.noDelay }
  if job.target.password.isEmpty then after.finishWaiting job cancelled none
  else after.finishTalking job cancelled .greeting job.target.authCommand.encode

def finishPreparing (job : Job) (cancelled : Bool) (thread : Thread)
    (calls : List (Event × Bytes)) : ClientRun :=
  let (events, failure) := upToFailure calls
  let after := { thread with events := thread.events ++ events }
  match failure with
  | none => after.finishTuning job cancelled
  | some cause =>
    let error := .call job.target.endpoint cause
    if (closeIfMade after.events).isEmpty then after.finishWaiting job cancelled (some error)
    else after.finishDropping job cancelled error

def finishResolving (job : Job) (cancelled : Bool) (thread : Thread) : ClientRun :=
  match job.target.endpoint.resolve job.script.lookup with
  | .error cause => thread.finishWaiting job cancelled (some (.lookup job.target.endpoint cause))
  | .ok address =>
    thread.finishPreparing job cancelled (job.target.preparations address job.script.faults)

/-- What a thread will come to from where it stands. -/
def finish (job : Job) (cancelled : Bool) (thread : Thread) : ClientRun :=
  match thread.stage with
  | .resolving => thread.finishResolving job cancelled
  | .preparing calls => thread.finishPreparing job cancelled calls
  | .tuning => thread.finishTuning job cancelled
  | .talking purpose unsent => thread.finishTalking job cancelled purpose unsent
  | .dropping cause => thread.finishDropping job cancelled cause
  | .arriving failure | .waiting failure => thread.finishWaiting job cancelled failure
  | .looping index => thread.finishLooping job index
  | .leaving failure => thread.finishLeaving job failure
  | .ended failure => thread.conclude job failure

/-- A call in the middle of a transfer is part of what is still to come. -/
theorem finishTalking_after (job : Job) (cancelled : Bool) (thread : Thread) (purpose : Purpose)
    {unsent rest : Bytes} {event : Event} {peer : Peer}
    (h : thread.peer.finishRoundTrip unsent = (peer.finishRoundTrip rest).after event) :
    thread.finishTalking job cancelled purpose unsent =
      ({ thread with peer := peer }.called event).finishTalking job cancelled purpose rest := by
  unfold finishTalking
  simp only [h, Stretch.after, called, List.append_assoc, List.singleton_append]

theorem finish_stepSend {job : Job} {cancelled : Bool} {thread : Thread} {purpose : Purpose}
    {unsent : Bytes} (hne : unsent ≠ []) (hs : thread.stage = .talking purpose unsent) :
    (thread.stepSend job purpose unsent).finish job cancelled =
      thread.finishTalking job cancelled purpose unsent := by
  obtain ⟨⟨outcome, peer⟩, hone⟩ : ∃ pair, thread.peer.sendOnce unsent = pair := ⟨_, rfl⟩
  unfold stepSend
  simp only [hone]
  cases outcome with
  | accept count =>
    have ht := Peer.finishRoundTrip_after (Peer.send_accept hne hone)
    exact (finishTalking_after job cancelled thread purpose ht).symm
  | fail errno =>
    by_cases hi : errno = .interrupted
    · subst hi
      have ht := Peer.finishRoundTrip_after (Peer.send_interrupted hne hone)
      rw [finishTalking_after job cancelled thread purpose ht]
      simp only [if_true, finish, called, hs]
    · have hf := Peer.finishRoundTrip_failed (Peer.send_failed hne hi hone)
      cases purpose <;> simp only [if_neg hi, finishTalking, hf] <;> rfl

theorem finish_stepRead {job : Job} {cancelled : Bool} {thread : Thread} {purpose : Purpose}
    (hs : thread.stage = .talking purpose []) :
    (thread.stepRead job purpose).finish job cancelled =
      thread.finishTalking job cancelled purpose [] := by
  obtain ⟨⟨outcome, peer⟩, hone⟩ : ∃ pair, thread.peer.readOnce = pair := ⟨_, rfl⟩
  unfold stepRead
  simp only [hone]
  cases outcome with
  | data reply =>
    have hr : thread.peer.finishRoundTrip [] = _ :=
      (Peer.finishRoundTrip_nil _).trans (Peer.read_data hone)
    cases purpose with
    | greeting =>
      simp only [answered, finishTalking, hr, finishGreeted]
      split <;> rfl
    | iteration index started =>
      simp only [finishTalking, hr]
      rfl
  | fail errno =>
    by_cases hi : errno = .interrupted
    · subst hi
      have hr : thread.peer.finishRoundTrip [] =
          (peer.finishRoundTrip []).after (.receive (.fail .interrupted)) := by
        rw [Peer.finishRoundTrip_nil, Peer.finishRoundTrip_nil, Peer.read_interrupted hone]
      rw [finishTalking_after job cancelled thread purpose hr]
      simp only [if_true, finish, called, hs]
    · have hr : thread.peer.finishRoundTrip [] = _ :=
        (Peer.finishRoundTrip_nil _).trans (Peer.read_failed hi hone)
      cases purpose <;> simp only [if_neg hi, finishTalking, hr] <;> rfl

theorem finishPreparing_nil (job : Job) (cancelled : Bool) (thread : Thread) :
    thread.finishPreparing job cancelled [] = thread.finishTuning job cancelled := by
  simp [finishPreparing, upToFailure]

theorem finishLooping_begin {job : Job} {thread : Thread} {index : Nat} (cancelled : Bool)
    (h : index < job.slice.first + job.slice.count) :
    thread.finishLooping job index =
      { thread with clock := thread.clock.read.2 }.finishTalking job cancelled
        (.iteration index thread.clock.read.1) (job.operation.command index).encode := by
  obtain ⟨count, hc⟩ : ∃ count, job.slice.first + job.slice.count - index = count + 1 :=
    ⟨job.slice.first + job.slice.count - index - 1, by omega⟩
  have hn : job.slice.first + job.slice.count - (index + 1) = count := by omega
  unfold finishLooping finishTalking
  rw [hc, ← Peer.roundTrip_eq]
  cases hr : (thread.peer.roundTrip (job.operation.command index)).result with
  | error cause =>
    simp only [Operation.iterate, hr, finishIteration, finishLeaving, conclude, called,
      List.append_nil]
  | ok reply =>
    simp only [Operation.iterate, hr, finishIteration, finishLooping, finishLeaving, conclude,
      called, hn, Iterations.after, List.append_assoc, List.singleton_append]

theorem finishLooping_end {job : Job} {thread : Thread} {index : Nat}
    (h : ¬ index < job.slice.first + job.slice.count) :
    thread.finishLooping job index = thread.finishLeaving job none := by
  have hc : job.slice.first + job.slice.count - index = 0 := by omega
  simp only [finishLooping, hc, Operation.iterate, List.append_nil]

theorem finishPreparing_cons (job : Job) (cancelled : Bool) (thread : Thread) (event : Event)
    (name : Bytes) (more : List (Event × Bytes)) :
    thread.finishPreparing job cancelled ((event, name) :: more) =
      match event.failure? with
      | none => (thread.called event).finishPreparing job cancelled more
      | some errno =>
        let error := .call job.target.endpoint ⟨name, errno⟩
        if (closeIfMade (thread.events ++ [event])).isEmpty then
          (thread.called event).finishWaiting job cancelled (some error)
        else (thread.called event).finishDropping job cancelled error := by
  cases hf : event.failure? with
  | some errno =>
    have hu : upToFailure ((event, name) :: more) = ([event], some ⟨name, errno⟩) := by
      rw [upToFailure, hf]
    simp only [finishPreparing, hu, called]
  | none =>
    have hu : upToFailure ((event, name) :: more) =
        (event :: (upToFailure more).1, (upToFailure more).2) := by
      rw [upToFailure, hf]
    simp only [finishPreparing, hu, called, List.append_assoc, List.singleton_append]

/-- No step changes what a thread will come to. The stages at the gate are left to the gate, and
there a step of the thread alone does nothing. -/
theorem finish_step (job : Job) (cancelled : Bool) (thread : Thread) :
    (thread.step job).finish job cancelled = thread.finish job cancelled := by
  unfold step
  cases hs : thread.stage with
  | resolving =>
    cases hr : job.target.endpoint.resolve job.script.lookup with
    | error cause => simp only [finish, hs, finishResolving, hr, goTo]; rfl
    | ok address => simp only [finish, hs, finishResolving, hr, goTo]; rfl
  | preparing calls =>
    cases calls with
    | nil =>
      simp only [finish, hs, finishPreparing_nil, goTo]
      rfl
    | cons call more =>
      obtain ⟨event, name⟩ := call
      cases hf : event.failure? with
      | none => simp only [finish, hs, finishPreparing_cons, hf, goTo]; rfl
      | some errno =>
        cases hc : (closeIfMade (thread.events ++ [event])).isEmpty <;>
          simp only [finish, hs, finishPreparing_cons, hf, called, hc] <;> rfl
  | tuning =>
    cases hp : job.target.password.isEmpty <;>
      simp only [finish, hs, finishTuning, hp] <;> rfl
  | talking purpose unsent =>
    have hf : thread.finish job cancelled = thread.finishTalking job cancelled purpose unsent := by
      simp only [finish, hs]
    rw [hf]
    cases unsent with
    | nil => exact finish_stepRead hs
    | cons b rest => exact finish_stepSend (List.cons_ne_nil b rest) hs
  | dropping cause => simp only [finish, hs, goTo]; rfl
  | arriving failure => rfl
  | waiting failure => rfl
  | looping index =>
    have hf : thread.finish job cancelled = thread.finishLooping job index := by
      simp only [finish, hs]
    rw [hf]
    by_cases hi : index < job.slice.first + job.slice.count
    · simp only [if_pos hi, finishLooping_begin cancelled hi]
      rfl
    · simp only [if_neg hi, finishLooping_end hi]
      rfl
  | leaving failure => simp only [finish, hs, goTo]; rfl
  | ended failure => rfl

theorem finish_arrived {job : Job} {cancelled : Bool} {thread : Thread}
    {failure : Option OpenError} (hs : thread.stage = .arriving failure) :
    (thread.goTo (.waiting failure)).finish job cancelled = thread.finish job cancelled := by
  simp only [finish, hs, goTo]
  rfl

/-- The gate lets a thread on to what it was to come to under the gate's decision. -/
theorem finish_released {job : Job} {cancelled : Bool} {thread : Thread}
    {failure : Option OpenError} (hs : thread.stage = .waiting failure) :
    (thread.released job failure cancelled).finish job cancelled =
      thread.finish job cancelled := by
  cases failure with
  | some cause => simp only [released, finish, hs, goTo]; rfl
  | none => cases cancelled <;> simp only [released, finish, hs, goTo] <;> rfl

theorem finishWaiting_failed {job : Job} {thread : Thread} {cause : OpenError}
    (hd : job.target.dial job.script = ⟨.error cause, thread.events, thread.log⟩)
    (he : thread.exchanges = []) (cancelled : Bool) :
    thread.finishWaiting job cancelled (some cause) = job.outcome cancelled := by
  have hw : Exchange.warnings job.operation [] = [] := rfl
  cases cancelled <;>
    simp only [finishWaiting, conclude, Job.outcome, Target.runClient, Dialled.leave, hd, he, hw,
      List.append_nil, if_true, if_false, Bool.false_eq_true]

theorem finishWaiting_connected {job : Job} {thread : Thread}
    (hd : job.target.dial job.script = ⟨.ok thread.peer, thread.events, thread.log⟩)
    (he : thread.exchanges = []) (hc : thread.clock = job.script.clock) (cancelled : Bool) :
    thread.finishWaiting job cancelled none = job.outcome cancelled := by
  have hw : Exchange.warnings job.operation [] = [] := rfl
  cases cancelled with
  | true =>
    simp only [finishWaiting, finishLeaving, conclude, called, Job.outcome, Dialled.leave, hd, he,
      hw, List.append_nil, if_true, Option.map_none]
  | false =>
    simp only [finishWaiting, finishLooping, finishLeaving, conclude, called, Job.outcome,
      Target.runClient, Dialled.continueWith, hd, he, hc, Nat.add_sub_cancel_left,
      List.nil_append, if_false, Bool.false_eq_true]

/-- Authenticating is the same conversation whether it is looked at whole or from its start. -/
theorem finishTuning_dialled {job : Job} {address : Address} {events : List Event}
    (ha : job.target.endpoint.resolve job.script.lookup = .ok address)
    (hu : upToFailure (job.target.preparations address job.script.faults) = (events, none))
    (cancelled : Bool) :
    { Thread.start job with events := events }.finishTuning job cancelled =
      job.outcome cancelled := by
  unfold finishTuning
  cases hp : job.target.password.isEmpty with
  | true =>
    refine finishWaiting_connected ?_ rfl rfl cancelled
    simp only [Target.dial, ha, hu, Target.greet, hp, if_true, List.append_nil]
    rfl
  | false =>
    have hg : job.target.greet job.script = job.target.authenticate job.script.peer := by
      simp only [Target.greet, hp, if_false, Bool.false_eq_true]
    simp only [if_false, Bool.false_eq_true, finishTalking]
    rw [← Peer.roundTrip_eq]
    have hpeer : (Thread.start job).peer = job.script.peer := rfl
    simp only [called, hpeer]
    cases hr : (job.script.peer.roundTrip job.target.authCommand).result with
    | error cause =>
      refine finishWaiting_failed ?_ rfl cancelled
      simp only [Target.dial, ha, hu, hg, Target.authenticate, hr]
      rfl
    | ok reply =>
      simp only [finishGreeted]
      by_cases hk : ReplyKind.ofBytes reply = .simpleString
      · rw [if_pos hk]
        refine finishWaiting_connected ?_ rfl rfl cancelled
        simp only [Target.dial, ha, hu, hg, Target.authenticate, hr, if_pos hk]
      · rw [if_neg hk]
        refine finishWaiting_failed ?_ rfl cancelled
        simp only [Target.dial, ha, hu, hg, Target.authenticate, hr, if_neg hk]
        rfl

/-- A thread that has just been started will come to what its client comes to alone. -/
theorem finish_start (job : Job) (cancelled : Bool) :
    (Thread.start job).finish job cancelled = job.outcome cancelled := by
  show (Thread.start job).finishResolving job cancelled = _
  unfold finishResolving
  cases ha : job.target.endpoint.resolve job.script.lookup with
  | error cause =>
    exact finishWaiting_failed (by simp only [Target.dial, ha]; rfl) rfl cancelled
  | ok address =>
    show (Thread.start job).finishPreparing job cancelled _ = _
    unfold finishPreparing
    cases hu : upToFailure (job.target.preparations address job.script.faults) with
    | mk events failure =>
      cases failure with
      | none => exact finishTuning_dialled ha hu cancelled
      | some cause =>
        have hd : job.target.dial job.script =
            ⟨.error (.call job.target.endpoint cause), events ++ closeIfMade events, []⟩ := by
          simp only [Target.dial, ha, hu]
        have hs : (Thread.start job).events ++ events = events := rfl
        simp only [hs]
        by_cases hm : (closeIfMade events).isEmpty = true
        · rw [if_pos hm]
          rw [List.isEmpty_iff.mp hm, List.append_nil] at hd
          exact finishWaiting_failed hd rfl cancelled
        · rw [if_neg hm]
          have hc : closeIfMade events = [.close] := by
            unfold closeIfMade at hm ⊢
            split
            · rfl
            · simp at hm
          rw [hc] at hd
          exact finishWaiting_failed hd rfl cancelled

/-- What a thread has done is the start of these calls and of these exchanges. -/
structure StartOf (past : Thread) (events : List Event) (exchanges : List Exchange) : Prop where
  events : past.events <+: events
  exchanges : past.exchanges <+: exchanges

section Ahead

variable {job : Job} {cancelled : Bool} {thread past : Thread}

theorem StartOf.append {events : List Event} {exchanges : List Exchange}
    (h : past.StartOf events exchanges) (later : List Event) (more : List Exchange) :
    past.StartOf (events ++ later) (exchanges ++ more) :=
  ⟨h.events.trans (List.prefix_append _ _), h.exchanges.trans (List.prefix_append _ _)⟩

theorem StartOf.calls {events : List Event} {exchanges : List Exchange}
    (h : past.StartOf events exchanges) (later : List Event) :
    past.StartOf (events ++ later) exchanges :=
  ⟨h.events.trans (List.prefix_append _ _), h.exchanges⟩

/-- What a thread has done is the start of what the client has done. -/
abbrev Precedes (past : Thread) (client : ClientRun) : Prop :=
  past.StartOf client.events client.exchanges

theorem precedes_finishLeaving (h : past.StartOf thread.events thread.exchanges)
    (failure : Option IterationError) : past.Precedes (thread.finishLeaving job failure) :=
  h.calls _

theorem precedes_finishLooping (h : past.StartOf thread.events thread.exchanges) (index : Nat) :
    past.Precedes (thread.finishLooping job index) :=
  precedes_finishLeaving (h.append _ _) _

theorem precedes_finishWaiting (h : past.StartOf thread.events thread.exchanges)
    (failure : Option OpenError) : past.Precedes (thread.finishWaiting job cancelled failure) := by
  cases failure with
  | some cause => exact h
  | none =>
    cases cancelled with
    | true => exact precedes_finishLeaving h none
    | false => exact precedes_finishLooping h job.slice.first

theorem precedes_finishDropping (h : past.StartOf thread.events thread.exchanges)
    (cause : OpenError) : past.Precedes (thread.finishDropping job cancelled cause) :=
  precedes_finishWaiting (h.calls _) _

theorem precedes_finishGreeted (h : past.StartOf thread.events thread.exchanges)
    (answer : Except IoError Bytes) : past.Precedes (thread.finishGreeted job cancelled answer) := by
  cases answer with
  | error cause => exact precedes_finishDropping h _
  | ok reply =>
    simp only [finishGreeted]
    split
    · exact precedes_finishWaiting h none
    · exact precedes_finishDropping h _

theorem precedes_finishIteration (h : past.StartOf thread.events thread.exchanges) (index : Nat)
    (started : Int) (answer : Except IoError Bytes) :
    past.Precedes (thread.finishIteration job index started answer) := by
  cases answer with
  | error cause => exact precedes_finishLeaving h _
  | ok reply =>
    refine precedes_finishLooping ?_ (index + 1)
    exact ⟨h.events, h.exchanges.trans (List.prefix_append _ _)⟩

theorem precedes_finishTalking (h : past.StartOf thread.events thread.exchanges)
    (purpose : Purpose) (unsent : Bytes) :
    past.Precedes (thread.finishTalking job cancelled purpose unsent) := by
  have hl := h.calls (thread.peer.finishRoundTrip unsent).events
  cases purpose with
  | greeting => exact precedes_finishGreeted hl _
  | iteration index started => exact precedes_finishIteration hl index started _

theorem precedes_finishTuning (h : past.StartOf thread.events thread.exchanges) :
    past.Precedes (thread.finishTuning job cancelled) := by
  have hl := h.calls [.noDelay job.script.faults.noDelay]
  simp only [finishTuning]
  split
  · exact precedes_finishWaiting hl none
  · exact precedes_finishTalking hl _ _

theorem precedes_finishPreparing (h : past.StartOf thread.events thread.exchanges)
    (calls : List (Event × Bytes)) : past.Precedes (thread.finishPreparing job cancelled calls) := by
  have hl := h.calls (upToFailure calls).1
  simp only [finishPreparing]
  split
  · exact precedes_finishTuning hl
  · split
    · exact precedes_finishWaiting hl _
    · exact precedes_finishDropping hl _

end Ahead

/-- The calls and the exchanges of a thread are the first of those that it will have made. -/
theorem precedes_finish (job : Job) (cancelled : Bool) (thread : Thread) :
    thread.Precedes (thread.finish job cancelled) := by
  have h : thread.StartOf thread.events thread.exchanges :=
    ⟨List.prefix_refl _, List.prefix_refl _⟩
  unfold finish
  cases thread.stage with
  | resolving =>
    simp only [finishResolving]
    split
    · exact precedes_finishWaiting h _
    · exact precedes_finishPreparing h _
  | preparing calls => exact precedes_finishPreparing h calls
  | tuning => exact precedes_finishTuning h
  | talking purpose unsent => exact precedes_finishTalking h purpose unsent
  | dropping cause => exact precedes_finishDropping h cause
  | arriving failure => exact precedes_finishWaiting h failure
  | waiting failure => exact precedes_finishWaiting h failure
  | looping index => exact precedes_finishLooping h index
  | leaving failure => exact precedes_finishLeaving h failure
  | ended failure => exact h

end Thread

end RespLoad
