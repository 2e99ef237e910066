import RespLoad.Proofs.Connection.Authentication
import RespLoad.Proofs.Driver.Workers

/-!
# Authentication in a run

With a password no client offers a byte of a command unless its server has admitted it, and a client that
was not admitted sends nothing more, leaves no socket open and has no samples, and its run fails. Without
a password nothing but commands is sent. This holds of the clients one after the other and of every
interleaving of them, at every moment.
-/
namespace RespLoad

/-- Dialling did not get the client a connection: that is its failure and all that it did. It has no
socket and no samples. -/
structure Target.TurnedAway (target : Target) (script : Script) (client : ClientRun) : Prop where
  failed : ∃ cause, (target.dial script).result = .error cause ∧
    client.failure = some (.connection cause)
  calls : client.events = (target.dial script).events
  closed : LeavesNoSocket client.events
  samples : client.exchanges = []

theorem Target.turnedAway_leave {target : Target} {script : Script} {cause : OpenError}
    (h : (target.dial script).result = .error cause) :
    target.TurnedAway script (target.dial script).leave := by
  have hc := Target.leavesNoSocket_dial h
  simp only [Dialled.leave, h]
  exact ⟨⟨cause, h, rfl⟩, rfl, hc, rfl⟩

/-- The client authenticates before anything else, and if it is not admitted it is turned away. -/
structure Target.Authenticates (target : Target) (frame : Bytes) (script : Script)
    (client : ClientRun) : Prop where
  first : AuthenticatesFirst frame client.events
  turnedAway : ¬ Admitted frame client.events → target.TurnedAway script client

theorem Dialled.GoesOn.authenticates {target : Target} {script : Script} {operation : Operation}
    {client : ClientRun} (h : (target.dial script).GoesOn operation client)
    (hp : target.password ≠ []) :
    target.Authenticates target.authCommand.encode script client := by
  have hfirst := Target.authenticatesFirst_dial hp script
  cases hd : (target.dial script).result with
  | error cause =>
    have haway := Target.turnedAway_leave hd
    rw [← h.eq_leave hd] at haway
    exact ⟨haway.calls ▸ hfirst, fun _ => haway⟩
  | ok peer =>
    have hadmitted := (Target.admitted_dial_iff hp script).mpr ⟨peer, hd⟩
    obtain ⟨later, he, _⟩ := h.openedOnce
    constructor
    · rw [he]
      exact hfirst.append_admitted target.encode_authCommand_ne_nil hadmitted later
    · intro hnot
      rw [he] at hnot
      exact absurd (hadmitted.append later) hnot

namespace Driver

/-- A run with a client that was turned away has failed. -/
theorem error_of_turnedAway {driver : Driver} {target : Target} {operation : Operation}
    {iterations : Nat} {network : Network} {script : Script} {client : ClientRun}
    (hm : client ∈ driver.workers target operation iterations network)
    (h : target.TurnedAway script client) :
    ∃ error, (driver.run target operation iterations network).1.result = .error error := by
  cases hr : (driver.run target operation iterations network).1.result with
  | error error => exact ⟨error, rfl⟩
  | ok run =>
    obtain ⟨cause, _, hf⟩ := h.failed
    have hnone := (madeOf_run target operation iterations network driver).succeeds run hr client hm
    rw [hf] at hnone
    cases hnone

/-- Each connection is that of one client, and every offer on it is of one of the client's commands. -/
structure OnlyCommands (operation : Operation) (slices : List Slice)
    (connections : List (List Event)) : Prop where
  belongs : connections.length ≤ slices.length
  commands : ∀ (k : Nat) (slice : Slice) (events : List Event), slices[k]? = some slice →
    connections[k]? = some events → SendsInTurn (operation.commands slice) events

theorem InTurn.onlyCommands {target : Target} {operation : Operation} {slices : List Slice}
    {connections : List (List Event)} (h : InTurn target operation slices connections)
    (hp : target.password = []) : OnlyCommands operation slices connections := by
  refine ⟨h.belongs, fun k slice events hs he => ?_⟩
  have hrequests : target.requests operation slice = operation.commands slice := by
    rw [Target.requests, Target.greeting, hp]
    rfl
  rw [← hrequests]
  exact h.inTurn k slice events hs he

end Driver

theorem Operation.head?_command (operation : Operation) (i : Nat) :
    (operation.command i).head? = some operation.name := by
  cases operation <;> rfl

namespace StartGate

/-- What one client shows in a state that was reached. If dialling does not get it a connection, it goes
no further, and when the run has returned it has been turned away and the run has failed. -/
structure Authenticates (target : Target) (frame : Bytes) (operation : Operation) (state : State)
    (script : Script) (thread : Thread) : Prop where
  first : AuthenticatesFirst frame thread.events
  goesNoFurther : ¬ Admitted frame (target.dial script).events →
    thread.events <+: (target.dial script).events ∧ thread.exchanges = []
  turnedAway : ¬ Admitted frame (target.dial script).events →
    ∀ returned, state.main = .returned returned →
      target.TurnedAway script (thread.result operation) ∧ ∃ error, returned.result = .error error

theorem goesOn_outcome (job : Job) (cancelled : Bool) :
    (job.target.dial job.script).GoesOn job.operation (job.outcome cancelled) := by
  cases cancelled with
  | true => exact .leaves
  | false => exact goesOn_runClient job.target job.operation job.slice job.script

section Reached

variable {target : Target} {clients : Nat} {operation : Operation} {iterations : Nat}
  {network : Network} {clock : Clock} {state : State}

theorem job_of_script (target : Target) (operation : Operation) (iterations : Nat) {k : Nat}
    {script : Script} (h : (network.nextScripts clients)[k]? = some script) :
    ∃ slice, (Setup.ofNetwork target clients operation iterations network).jobs[k]? =
      some ⟨target, operation, slice, script⟩ := by
  have hk : k < (Driver.slices iterations clients).length := by
    have hl := (List.getElem?_eq_some_iff.mp h).1
    rwa [Network.length_nextScripts, ← Driver.length_slices iterations clients] at hl
  exact ⟨_, List.getElem?_zipWith_eq_some.mpr
    ⟨_, script, List.getElem?_eq_getElem hk, h, rfl⟩⟩

/-- A run that returns has failed if one of its clients has. -/
theorem error_of_returned {setup : Setup} {thread : Thread} {returned : Attempt}
    {cause : ClientError} (h : Reachable setup clock state) (hr : state.main = .returned returned)
    (ht : thread ∈ state.clients) (hf : thread.failure? = some cause) :
    ∃ error, returned.result = .error error := by
  have hstage := (coherent_of_reachable h).stage
  simp only [AtStage, hr] at hstage
  obtain ⟨_, _, ⟨_, _, elapsed, rfl⟩ | ⟨_, _, rfl⟩⟩ := hstage
  · cases hm : (Driver.merge setup.operation setup.iterations elapsed (state.runs setup)).result with
    | error error => exact ⟨error, rfl⟩
    | ok run =>
      have hnone := (Driver.run_of_merge hm).1 (thread.result setup.operation)
        (List.mem_map_of_mem ht)
      rw [Thread.result, hf] at hnone
      cases hnone
  · exact ⟨_, rfl⟩

theorem authenticates_of_reachable (hp : target.password ≠ [])
    (h : Reachable (.ofNetwork target clients operation iterations network) clock state)
    {k : Nat} {script : Script} {thread : Thread}
    (hs : (network.nextScripts clients)[k]? = some script)
    (ht : state.clients[k]? = some thread) :
    Authenticates target target.authCommand.encode operation state script thread := by
  obtain ⟨slice, hj⟩ := job_of_script target operation iterations hs
  have hgoes := goesOn_outcome ⟨target, operation, slice, script⟩ state.cancelled
  have hpast := precedes_of_reachable h ht hj
  have hclient := hgoes.authenticates hp
  have haway : ¬ Admitted target.authCommand.encode (target.dial script).events →
      target.TurnedAway script
        ((⟨target, operation, slice, script⟩ : Job).outcome state.cancelled) := by
    intro hnot
    cases hd : (target.dial script).result with
    | ok peer => exact absurd ((Target.admitted_dial_iff hp script).mpr ⟨peer, hd⟩) hnot
    | error cause =>
      rw [hgoes.eq_leave hd]
      exact Target.turnedAway_leave hd
  refine ⟨hclient.first.upTo hpast.events, fun hnot => ⟨?_, ?_⟩, fun hnot returned hr => ?_⟩
  · exact (haway hnot).calls ▸ hpast.events
  · have hnone := (haway hnot).samples ▸ hpast.exchanges
    exact List.prefix_nil.mp hnone
  · have hstage := (coherent_of_reachable h).stage
    simp only [AtStage, hr] at hstage
    have hended := List.all_eq_true.mp hstage.2.1 thread (List.mem_of_getElem? ht)
    have hresult := result_of_reachable h ht hj hended
    have hthread := haway hnot
    rw [← hresult] at hthread
    obtain ⟨cause, _, hf⟩ := hthread.failed
    exact ⟨hthread, error_of_returned h hr (List.mem_of_getElem? ht) hf⟩

end Reached

end StartGate

theorem exists_of_mem_forall₂ {α β : Type} {r : α → β → Prop} {as : List α} {bs : List β} {b : β}
    (h : List.Forall₂ r as bs) (hb : b ∈ bs) : ∃ a ∈ as, r a b := by
  induction h with
  | nil => cases hb
  | @cons first _ _ _ hr _ ih =>
    rcases List.mem_cons.mp hb with rfl | hm
    · exact ⟨first, List.mem_cons_self, hr⟩
    · obtain ⟨a, ha, hra⟩ := ih hm
      exact ⟨a, List.mem_cons_of_mem first ha, hra⟩

/-- No command is sent on a connection that has not authenticated. With a password the first that a client
offers is the request that authenticates, with the user if there is one, and it offers more only after
all of that was accepted and the one read behind it brought a plus sign in front. Otherwise dialling has
failed, the socket is closed, the client has no samples and the run fails. Without a password only
commands are offered, none of which authenticates. The third and the last part say the same of every
state that some interleaving of the threads reaches. -/
theorem Driver.authenticates_run (driver : Driver) (target : Target) (operation : Operation)
    (iterations : Nat) (network : Network) :
    let frame := Command.encode
      (if target.user = [] then [utf8 "AUTH", target.password]
      else [utf8 "AUTH", target.user, target.password])
    let attempt := (driver.run target operation iterations network).1
    let clients := driver.workers target operation iterations network
    attempt.connections = clients.map ClientRun.events ∧
    (target.password ≠ [] →
      List.Forall₂ (target.Authenticates frame)
        ((network.nextScripts driver.clients).take clients.length) clients ∧
      (∀ client ∈ clients, ¬ Admitted frame client.events →
        ∃ error, attempt.result = .error error) ∧
      ∀ (count : Nat) (clock : Clock) (state : StartGate.State),
        StartGate.Reachable (.ofNetwork target count operation iterations network) clock state →
        ∀ (k : Nat) (script : Script) (thread : Thread),
          (network.nextScripts count)[k]? = some script → state.clients[k]? = some thread →
            StartGate.Authenticates target frame operation state script thread) ∧
    (target.password = [] →
      (∀ i, (operation.command i).head? ≠ some (utf8 "AUTH")) ∧
      OnlyCommands operation (driver.ranges iterations) attempt.connections ∧
      ∀ (count : Nat) (clock : Clock) (state : StartGate.State),
        StartGate.Reachable (.ofNetwork target count operation iterations network) clock state →
          OnlyCommands operation (slices iterations count) (state.clients.map Thread.events)) := by
  intro frame attempt clients
  have hframe : frame = target.authCommand.encode := by
    simp only [frame, Target.authCommand, List.isEmpty_iff]
  rw [hframe]
  refine ⟨(madeOf_run target operation iterations network driver).connections, fun hp => ?_,
    fun hp => ?_⟩
  · have hworkers := forall₂_workers target operation iterations network driver
    have hall := hworkers.imp fun script client h => h.authenticates hp
    refine ⟨hall, fun client hm hnot => ?_, fun count clock state h k script thread hs ht =>
      StartGate.authenticates_of_reachable hp h hs ht⟩
    obtain ⟨script, _, hclient⟩ := exists_of_mem_forall₂ hall hm
    exact error_of_turnedAway hm (hclient.turnedAway hnot)
  · refine ⟨fun i => ?_, ?_, fun count clock state h => ?_⟩
    · rw [operation.head?_command]
      cases operation <;> decide
    · exact (turns_run driver target operation iterations network).1.onlyCommands hp
    · exact (StartGate.inTurn_of_reachable h).onlyCommands hp

/-- Two clients, of which the second is refused. It is turned away, alone and when the two take turns, and
the run fails; without a password both would have gone on. -/
theorem Driver.authenticates_run_two_clients :
    let target : Target := { user := utf8 "app", password := utf8 "pw" }
    let accepted := ReadOutcome.data (utf8 "+OK\r\n")
    let refusing : Script := { peer := { reads := [.data (utf8 "-WRONGPASS\r\n")] } }
    let network : Network := { scripts := [{ peer := { reads := [accepted] } }, refusing] }
    let attempt := ((concurrent 1).run target .set 3 network).1
    let state := StartGate.follow (.ofNetwork target 2 .set 3 network) { clock := Clock.steady }
      (List.replicate 9 [.main, .client 1, .client 0]).flatten
    (∃ error, attempt.result = .error error) ∧
    (∃ thread, state.clients[1]? = some thread ∧
      thread.events <+: (target.dial refusing).events ∧ thread.exchanges = []) ∧
    OnlyCommands .set (slices 3 2)
      ((concurrent 1).run { user := utf8 "app" } .set 3 network).1.connections := by
  intro target accepted refusing network attempt state
  have hnot : ∀ events, repliesRead events = [utf8 "-WRONGPASS\r\n"] →
      ∀ frame, ¬ Admitted frame events := by
    intro events he frame hd
    obtain ⟨reply, more, hr, hplus⟩ := hd.repliesRead
    rw [he] at hr
    cases hr
    exact absurd hplus (by decide)
  obtain ⟨_, hpassword, _⟩ := authenticates_run (concurrent 1) target .set 3 network
  obtain ⟨_, hfails, hreached⟩ := hpassword (by decide)
  refine ⟨?_, ?_, ?_⟩
  · have hreplies : (((concurrent 1).workers target .set 3 network).map fun client =>
        repliesRead client.events)[1]? = some [utf8 "-WRONGPASS\r\n"] := by decide +kernel
    rw [List.getElem?_map] at hreplies
    obtain ⟨client, hk, hclient⟩ := Option.map_eq_some_iff.mp hreplies
    exact hfails client (List.mem_of_getElem? hk) (hnot _ hclient _)
  · have hs : StartGate.Reachable (.ofNetwork target 2 .set 3 network) Clock.steady state :=
      StartGate.reachable_follow .start _
    have hl : 1 < state.clients.length := by decide +kernel
    have ht := List.getElem?_eq_getElem hl
    have hreplies : repliesRead (target.dial refusing).events = [utf8 "-WRONGPASS\r\n"] := by
      decide +kernel
    exact ⟨_, ht, (hreached 2 _ state hs 1 refusing _ rfl ht).goesNoFurther (hnot _ hreplies _)⟩
  · obtain ⟨_, _, hnone⟩ := authenticates_run (concurrent 1) { user := utf8 "app" } .set 3 network
    exact (hnone rfl).2.1

end RespLoad
