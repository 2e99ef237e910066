import RespLoad.Proofs.Connection.Deliveries
import RespLoad.Proofs.Text.Decode
import RespLoad.Proofs.Driver.AnyOrder

/-!
# The accounts of a run

A run that succeeds has one sample and one reply for each iteration, and its tallies are those of the
bytes that the reads of the iterations brought. What a read brings is settled by the server's script
alone: at most `readLimit` bytes, the rest of a longer reply before anything else. The times are not
spoken of.
-/
namespace RespLoad

/-- What the reads of a client's iterations brought. The answer to the greeting comes before them. -/
def Target.iterationReplies (target : Target) (events : List Event) : List Bytes :=
  (repliesRead events).drop target.greeting.length

namespace ReplyTally

/-- How many of the byte strings are empty, begin with a minus sign, and are no well-formed UTF-8. -/
def ofReplies (replies : List Bytes) : ReplyTally where
  empty := replies.countP (· = [])
  errors := replies.countP (·.head? = some 45)
  lossy := replies.countP (¬ Utf8.WellFormed ·)

theorem countP_add_countP_le {p q : Bytes → Bool} (h : ∀ reply, q reply = true → ¬ p reply = true)
    (replies : List Bytes) : replies.countP p + replies.countP q ≤ replies.length := by
  have hsplit := replies.length_eq_countP_add_countP p
  have hq : replies.countP q ≤ replies.countP fun reply => ¬ p reply = true :=
    List.countP_mono_left fun reply _ hr => decide_eq_true (h reply hr)
  omega

/-- No data is well-formed and has no first byte, so an empty reply counts as nothing else. -/
theorem ofReplies_le (replies : List Bytes) :
    (ofReplies replies).empty + (ofReplies replies).errors ≤ replies.length ∧
      (ofReplies replies).empty + (ofReplies replies).lossy ≤ replies.length := by
  constructor
  · apply countP_add_countP_le
    intro reply hm he
    rw [of_decide_eq_true he] at hm
    cases hm
  · apply countP_add_countP_le
    intro reply hl he
    rw [of_decide_eq_true he] at hl
    exact of_decide_eq_true hl .nil

end ReplyTally

theorem ReplyKind.ofBytes_eq_empty_iff {bytes : Bytes} : ofBytes bytes = .empty ↔ bytes = [] := by
  cases bytes with
  | nil => exact ⟨fun _ => rfl, fun _ => rfl⟩
  | cons b rest =>
    constructor
    · intro h
      simp only [ofBytes] at h
      repeat' split at h
      all_goals cases h
    · intro h
      cases h

theorem ReplyKind.ofBytes_eq_error_iff {bytes : Bytes} :
    ofBytes bytes = .error ↔ bytes.head? = some 45 := by
  cases bytes with
  | nil => exact ⟨nofun, nofun⟩
  | cons b rest =>
    rw [List.head?_cons, Option.some.injEq]
    constructor
    · intro h
      by_contra hb
      simp only [ofBytes, if_neg hb] at h
      repeat' split at h
      all_goals cases h
    · rintro rfl
      rfl

/-- What is counted of the exchanges is what their replies are. -/
theorem Exchange.tally_eq (exchanges : List Exchange) :
    Exchange.tally exchanges = .ofReplies (exchanges.map Exchange.reply) := by
  have hempty : exchanges.countP (·.kind = .empty) = (exchanges.map reply).countP (· = []) := by
    rw [List.countP_map]
    refine List.countP_congr fun exchange _ => ?_
    simp only [Function.comp_apply, decide_eq_true_eq]
    exact ReplyKind.ofBytes_eq_empty_iff
  have herrors : exchanges.countP (·.kind = .error) =
      (exchanges.map reply).countP (·.head? = some 45) := by
    rw [List.countP_map]
    refine List.countP_congr fun exchange _ => ?_
    simp only [Function.comp_apply, decide_eq_true_eq]
    exact ReplyKind.ofBytes_eq_error_iff
  have hlossy : exchanges.countP (Utf8.isLossy ·.reply) =
      (exchanges.map reply).countP (¬ Utf8.WellFormed ·) := by
    rw [List.countP_map]
    refine List.countP_congr fun exchange _ => ?_
    simp only [Function.comp_apply, decide_eq_true_eq, ← Utf8.isLossy_eq_false_iff,
      Bool.not_eq_false]
  rw [tally, hempty, herrors, hlossy, ReplyTally.ofReplies]

section Iterates

variable {operation : Operation} {count index : Nat} {peer : Peer} {clock : Clock}
  {work : Iterations}

/-- The replies of the exchanges are what was read, in order, also up to a failure. -/
theorem Iterates.repliesRead (h : Iterates operation count index peer clock work) :
    repliesRead work.events = work.exchanges.map Exchange.reply := by
  induction h with
  | done index peer clock => rfl
  | @failed index peer cause count clock hr =>
    have ht := roundTrip_roundTrip peer (operation.command index)
    rw [hr] at ht
    exact ht.repliesRead
  | @exchanged count index peer clock reply later hr hl ih =>
    have ht := roundTrip_roundTrip peer (operation.command index)
    rw [hr] at ht
    simp only [Iterations.after, repliesRead_append, ht.repliesRead, ih]
    rfl

theorem Iterates.answers (h : Iterates operation count index peer clock work) :
    peer.Answers work.events := by
  induction h with
  | done index peer clock => exact (Peer.Delivers.refl peer).answers
  | @failed index peer cause count clock hr => exact (peer.delivers_roundTrip _).answers
  | @exchanged count index peer clock reply later hr hl ih =>
    exact (peer.delivers_roundTrip _).answers_append ih

end Iterates

/-- A client that has so many exchanges, each with one read of what its server delivered. -/
structure ClientRun.Complete (target : Target) (count : Nat) (script : Script)
    (client : ClientRun) : Prop where
  replies : target.iterationReplies client.events = client.exchanges.map Exchange.reply
  length : client.exchanges.length = count
  answers : script.peer.Answers client.events

/-- The replies of the iterations are those of the exchanges, also up to a failure. -/
theorem iterationReplies_continue {target : Target} {script : Script} {peer : Peer}
    (hd : (target.dial script).result = .ok peer) (operation : Operation) (count first : Nat)
    (clock : Clock) :
    let work := operation.iterate count first peer clock
    target.iterationReplies ((target.dial script).continueWith operation work).events =
      work.exchanges.map Exchange.reply := by
  intro work
  have hgreeting := ((turns_dial target script).2 peer hd).replies
  simp only [Target.iterationReplies, Dialled.continueWith, repliesRead_append,
    repliesRead_of_setup isSetup_close, List.append_nil, List.drop_left' hgreeting]
  exact (iterates_iterate operation count first peer clock).repliesRead

theorem complete_continue {target : Target} {operation : Operation} {count first : Nat}
    {script : Script} {peer : Peer} (hd : (target.dial script).result = .ok peer) {clock : Clock} :
    let client := (target.dial script).continueWith operation
      (operation.iterate count first peer clock)
    client.failure = none → client.Complete target count script := by
  intro client hf
  have hnone : (operation.iterate count first peer clock).failure = none :=
    Option.map_eq_none_iff.mp hf
  have hwork := iterates_iterate operation count first peer clock
  refine ⟨iterationReplies_continue hd operation count first clock, ?_, ?_⟩
  · rcases hwork.runsRange.2 with ⟨_, hall⟩ | ⟨cause, hsome, _⟩
    · exact hall
    · rw [hnone] at hsome
      cases hsome
  · exact ((delivers_dial hd).answers_append hwork.answers).append_setup isSetup_close

theorem complete_runClient {target : Target} {operation : Operation} {slice : Slice}
    {script : Script} (hf : (target.runClient operation slice script).failure = none) :
    (target.runClient operation slice script).Complete target slice.count script := by
  cases hd : (target.dial script).result with
  | error cause =>
    rw [runClient_of_error hd] at hf
    simp only [Dialled.leave, hd] at hf
    cases hf
  | ok peer =>
    rw [runClient_of_ok hd] at hf ⊢
    exact complete_continue hd hf

namespace Driver

/-- The number of connections of a driver. -/
def clients : Driver → Nat
  | .sequential => 1
  | .concurrent others => others + 1

/-- What a run that succeeded shows on its connections. -/
structure Accounted (target : Target) (iterations : Nat) (scripts : List Script)
    (connections : List (List Event)) (run : OperationRun) : Prop where
  samples : run.samples.length = iterations
  measured : run.measurement.iterations = iterations
  replies : (connections.flatMap target.iterationReplies).length = iterations
  tally : run.measurement.replies = .ofReplies (connections.flatMap target.iterationReplies)
  emptyOrError : run.measurement.replies.empty + run.measurement.replies.errors ≤ iterations
  emptyOrLossy : run.measurement.replies.empty + run.measurement.replies.lossy ≤ iterations
  belongs : connections.length = scripts.length
  answered : ∀ (k : Nat) (script : Script) (events : List Event), scripts[k]? = some script →
    connections[k]? = some events →
      script.peer.Answers events ∧ ∀ reply ∈ repliesRead events, reply.length ≤ readLimit

/-- Clients that ran their ranges to the end have as many exchanges as the ranges are long. -/
theorem length_flatMap_exchanges {slices : List Slice} {clients : List ClientRun}
    (hl : clients.length = slices.length)
    (h : ∀ (k : Nat) (client : ClientRun), clients[k]? = some client →
      ∃ slice, slices[k]? = some slice ∧ client.exchanges.length = slice.count) :
    (clients.flatMap ClientRun.exchanges).length = (slices.map Slice.count).sum := by
  have hlengths : clients.map (fun client => client.exchanges.length) =
      slices.map Slice.count := by
    apply List.ext_getElem?
    intro k
    rw [List.getElem?_map, List.getElem?_map]
    cases hk : clients[k]? with
    | none =>
      have hle := List.getElem?_eq_none_iff.mp hk
      rw [List.getElem?_eq_none (hl ▸ hle)]
      rfl
    | some client =>
      obtain ⟨slice, hs, hcount⟩ := h k client hk
      rw [hs, Option.map_some, Option.map_some, hcount]
  rw [List.length_flatMap, hlengths]

/-- A run that is made of complete clients is accounted for. -/
theorem accounted_ofExchanges {target : Target} (operation : Operation) {iterations : Nat}
    {slices : List Slice} {scripts : List Script} {clients : List ClientRun} (elapsed : Int)
    (hsum : (slices.map Slice.count).sum = iterations) (hslices : clients.length = slices.length)
    (hscripts : clients.length = scripts.length)
    (hclients : ∀ (k : Nat) (client : ClientRun), clients[k]? = some client →
      ∃ slice script, slices[k]? = some slice ∧ scripts[k]? = some script ∧
        client.Complete target slice.count script) :
    Accounted target iterations scripts (clients.map ClientRun.events)
      (.ofExchanges operation iterations elapsed (clients.flatMap ClientRun.exchanges)) := by
  have htotal : (clients.flatMap ClientRun.exchanges).length = iterations := by
    rw [← hsum]
    refine length_flatMap_exchanges hslices fun k client hk => ?_
    obtain ⟨slice, _, hs, _, hcomplete⟩ := hclients k client hk
    exact ⟨slice, hs, hcomplete.length⟩
  have hreplies : (clients.map ClientRun.events).flatMap target.iterationReplies =
      (clients.flatMap ClientRun.exchanges).map Exchange.reply := by
    rw [List.flatMap_map, List.map_flatMap]
    refine List.flatMap_congr fun client hm => ?_
    obtain ⟨k, hk⟩ := List.getElem?_of_mem hm
    obtain ⟨_, _, _, _, hcomplete⟩ := hclients k client hk
    exact hcomplete.replies
  have htally := Exchange.tally_eq (clients.flatMap ClientRun.exchanges)
  obtain ⟨hempty, hlossy⟩ :=
    ReplyTally.ofReplies_le ((clients.flatMap ClientRun.exchanges).map Exchange.reply)
  rw [← htally, List.length_map, htotal] at hempty hlossy
  refine ⟨?_, rfl, ?_, ?_, hempty, hlossy, ?_, ?_⟩
  · exact (List.length_map _).trans htotal
  · rw [hreplies, List.length_map, htotal]
  · rw [hreplies]
    exact htally
  · rw [List.length_map, hscripts]
  · intro k script events hs he
    rw [List.getElem?_map] at he
    obtain ⟨client, hk, rfl⟩ := Option.map_eq_some_iff.mp he
    obtain ⟨_, script', _, hs', hcomplete⟩ := hclients k client hk
    rw [hs, Option.some.injEq] at hs'
    subst hs'
    obtain ⟨rounds, hrounds⟩ := hcomplete.answers
    exact ⟨hcomplete.answers, fun reply hr => length_le_of_mem_pieces (hrounds.subset hr)⟩

theorem accounted_runSequential {target : Target} {operation : Operation} {iterations : Nat}
    {network : Network} {run : OperationRun}
    (h : (runSequential target operation iterations network).1.result = .ok run) :
    Accounted target iterations (network.nextScripts 1)
      (runSequential target operation iterations network).1.connections run := by
  rw [Network.nextScripts_one]
  cases hd : (target.dial network.nextScript).result with
  | error cause =>
    simp only [runSequential, hd] at h
    cases h
  | ok peer =>
    simp only [runSequential, hd] at h ⊢
    split at h
    · cases h
    · rename_i hnone
      cases h
      let work := operation.iterate iterations 0 peer (network.dropScripts 1).readClock.2.clock
      let client := (target.dial network.nextScript).continueWith operation work
      have hall : client.exchanges = [client].flatMap ClientRun.exchanges :=
        (List.append_nil _).symm
      have hsum : ([⟨0, iterations⟩].map Slice.count).sum = iterations := Nat.add_zero _
      rw [hall]
      apply @accounted_ofExchanges _ operation _ [⟨0, iterations⟩] _ [client] _ hsum rfl rfl
      intro k other hk
      cases k with
      | succ k => cases hk
      | zero =>
        cases hk
        exact ⟨_, _, rfl, rfl, complete_continue hd hnone⟩

theorem accounted_runConcurrent {target : Target} {clients : Nat} (hpos : 0 < clients)
    {operation : Operation} {iterations : Nat} {network : Network} {run : OperationRun}
    (h : (runConcurrent target clients operation iterations network).1.result = .ok run) :
    Accounted target iterations (network.nextScripts clients)
      (runConcurrent target clients operation iterations network).1.connections run := by
  cases hf : network.failingAmong clients with
  | some index =>
    simp only [runConcurrent, hf] at h
    cases h
  | none =>
    simp only [runConcurrent, hf] at h ⊢
    obtain ⟨hfailure, hrun⟩ := run_of_merge h
    have hlength := length_clientRuns target clients operation iterations network
    have hslices := hlength.trans (length_slices iterations clients).symm
    have hscripts := hlength.trans (network.length_nextScripts clients).symm
    rw [hrun, connections_merge]
    refine accounted_ofExchanges operation _ (sum_count_slices iterations hpos) hslices hscripts ?_
    intro k client hk
    obtain ⟨slice, script, hs, hscript, rfl⟩ := List.getElem?_zipWith_eq_some.mp hk
    exact ⟨slice, script, hs, hscript, complete_runClient (hfailure _ (List.mem_of_getElem? hk))⟩

/-- The accounts of a run that succeeds, with either driver and, for the concurrent one, in whatever
order its threads run: one sample and one read for each iteration, and tallies that count the empty
reads, the reads that begin with a minus sign and the reads that are no well-formed UTF-8. -/
theorem accounted_run (driver : Driver) (target : Target) (operation : Operation)
    (iterations : Nat) (network : Network) :
    let attempt := (driver.run target operation iterations network).1
    (∀ run, attempt.result = .ok run →
      Accounted target iterations (network.nextScripts driver.clients) attempt.connections run) ∧
    ∀ (others : Nat) (state : StartGate.State) (returned : Attempt) (run : OperationRun),
      StartGate.Reachable (.ofNetwork target (others + 1) operation iterations network)
        network.clock state →
      state.main = .returned returned → returned.result = .ok run →
        Accounted target iterations (network.nextScripts (others + 1)) returned.connections run := by
  intro attempt
  constructor
  · intro run h
    by_cases hlimit : Operation.maxIterations < iterations
    · simp only [attempt, Driver.run, if_pos hlimit] at h
      cases h
    · simp only [attempt, Driver.run, if_neg hlimit] at h ⊢
      cases driver with
      | sequential => exact accounted_runSequential h
      | concurrent others => exact accounted_runConcurrent (Nat.succ_pos others) h
  · intro others state returned run hstate hm h
    have hreturned := StartGate.attempt_of_returned hstate hm
    rw [hreturned] at h ⊢
    exact accounted_runConcurrent (Nat.succ_pos others) h

/-- Two clients with a password and four iterations. The first is answered once, with more than one
read can take, so that its second iteration reads the rest; the second reads an error that is no UTF-8,
and then the server closes. The same clients as threads, taking turns, come to the same accounts. -/
theorem accounted_run_two_clients :
    let target : Target := { password := utf8 "pw" }
    let accepted := ReadOutcome.data (utf8 "+OK\r\n")
    let network : Network := { scripts := [
      { peer := { reads := [accepted, .data (List.replicate 1030 45)] } },
      { peer := { reads := [accepted, .data [45, 255]] } }] }
    let attempt := ((concurrent 1).run target .ping 4 network).1
    let state := StartGate.follow (.ofNetwork target 2 .ping 4 network) { clock := network.clock }
      (List.replicate 24 [.main, .client 1, .client 0]).flatten
    (attempt.connections.flatMap target.iterationReplies).map List.length = [1024, 6, 2, 0] ∧
    (∃ run, attempt.result = .ok run ∧ run.samples.length = 4 ∧
      run.measurement.replies = ⟨1, 3, 1⟩) ∧
    ∃ returned run, state.main = .returned returned ∧ returned.result = .ok run ∧
      run.samples.length = 4 := by
  intro target accepted network attempt state
  obtain ⟨hrun, hreached⟩ := accounted_run (concurrent 1) target .ping 4 network
  refine ⟨by decide +kernel, ?_, ?_⟩
  · have hok : attempt.result.isOk = true := by decide +kernel
    have hreplies : ReplyTally.ofReplies (attempt.connections.flatMap target.iterationReplies) =
        ⟨1, 3, 1⟩ := by decide +kernel
    cases hr : attempt.result with
    | error cause => rw [hr] at hok; cases hok
    | ok run =>
      have haccounted := hrun run hr
      exact ⟨run, rfl, haccounted.samples, haccounted.tally.trans hreplies⟩
  · have hok : state.returned?.any (·.result.isOk) = true := by decide +kernel
    have hstate : StartGate.Reachable (.ofNetwork target 2 .ping 4 network) network.clock state :=
      StartGate.reachable_follow .start _
    have haccounted := hreached 1 state
    clear_value state
    obtain ⟨returned, run, hm, hr⟩ := StartGate.State.run_of_returned? hok
    exact ⟨returned, run, hm, hr, (haccounted returned run hstate hm hr).samples⟩

end Driver

end RespLoad
