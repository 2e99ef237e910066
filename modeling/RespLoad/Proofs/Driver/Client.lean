import RespLoad.Proofs.Connection.Dial
import RespLoad.Driver.Client

/-!
# The requests of one client

A client greets if it has a password and then sends the commands of its range. It keeps to one request
at a time up to its last iteration, and a client without a failure has carried all of them through.
-/
namespace RespLoad

/-- The commands of a range of iterations, in order. -/
def Operation.commands (operation : Operation) (slice : Slice) : List Command :=
  (List.range' slice.first slice.count).map operation.command

/-- All that a client sends. -/
def Target.requests (target : Target) (operation : Operation) (slice : Slice) : List Command :=
  target.greeting ++ operation.commands slice

/-- How a range of iterations runs: nothing is left to do, or a round trip fails and ends it, or one
succeeds and the rest of the range follows. -/
inductive Iterates (operation : Operation) : Nat → Nat → Peer → Clock → Iterations → Prop
  | done (index : Nat) (peer : Peer) (clock : Clock) :
      Iterates operation 0 index peer clock ⟨[], none, [], clock⟩
  | failed {index : Nat} {peer : Peer} {cause : IoError} (count : Nat) (clock : Clock)
      (hr : (peer.roundTrip (operation.command index)).result = .error cause) :
      Iterates operation (count + 1) index peer clock
        ⟨[], some ⟨operation, index, cause⟩,
          (peer.roundTrip (operation.command index)).events, clock.read.2⟩
  | exchanged {count index : Nat} {peer : Peer} {clock : Clock} {reply : Bytes}
      {later : Iterations}
      (hr : (peer.roundTrip (operation.command index)).result = .ok reply)
      (hl : Iterates operation count (index + 1) (peer.roundTrip (operation.command index)).peer
        clock.read.2.read.2 later) :
      Iterates operation (count + 1) index peer clock
        (later.after ⟨index, clock.read.1, clock.read.2.read.1, reply⟩
          (peer.roundTrip (operation.command index)).events)

theorem iterates_iterate (operation : Operation) (count index : Nat) (peer : Peer)
    (clock : Clock) :
    Iterates operation count index peer clock (operation.iterate count index peer clock) := by
  induction count generalizing index peer clock with
  | zero => exact .done index peer clock
  | succ count ih =>
    cases hr : (peer.roundTrip (operation.command index)).result with
    | error cause =>
      simp only [Operation.iterate, hr]
      exact .failed count clock hr
    | ok reply =>
      simp only [Operation.iterate, hr]
      exact .exchanged hr (ih _ _ _)

theorem turns_iterate (operation : Operation) (count index : Nat) (peer : Peer) (clock : Clock) :
    let work := operation.iterate count index peer clock
    SendsInTurn (operation.commands ⟨index, count⟩) work.events ∧
      (work.failure = none → Completes (operation.commands ⟨index, count⟩) work.events) := by
  intro work
  have hwork : Iterates operation count index peer clock work := iterates_iterate ..
  clear_value work
  induction hwork with
  | done index peer clock =>
    have hnone := List.forall_mem_nil fun event : Event => event.isSetup = true
    exact ⟨sendsInTurn_of_setup hnone, fun _ => completes_of_setup hnone⟩
  | @failed index peer cause count clock hr =>
    have ht := roundTrip_roundTrip peer (operation.command index)
    exact ⟨ht.sendsInTurn.weaken _, fun h => by cases h⟩
  | @exchanged count index peer clock reply later hr hl ih =>
    have hcons : operation.commands ⟨index, count + 1⟩ =
        [operation.command index] ++ operation.commands ⟨index + 1, count⟩ := rfl
    have ht := roundTrip_roundTrip peer (operation.command index)
    rw [hr] at ht
    rw [hcons]
    exact ⟨ht.sendsInTurn.append ht.completes ih.1, fun h => ht.completes.append (ih.2 h)⟩

/-- A client that goes no further than dialling greets at most. -/
theorem sendsInTurn_greeting_leave (target : Target) (script : Script) :
    SendsInTurn target.greeting (target.dial script).leave.events := by
  have hs := (turns_dial target script).1
  unfold Dialled.leave
  split
  · exact hs
  · exact hs.append_setup isSetup_close

theorem sendsInTurn_leave (target : Target) (operation : Operation) (slice : Slice)
    (script : Script) :
    SendsInTurn (target.requests operation slice) (target.dial script).leave.events :=
  (sendsInTurn_greeting_leave target script).weaken (operation.commands slice)

theorem turns_continue {target : Target} (operation : Operation) (slice : Slice) {script : Script}
    {peer : Peer} (hd : (target.dial script).result = .ok peer) (clock : Clock) :
    let client := (target.dial script).continueWith operation
      (operation.iterate slice.count slice.first peer clock)
    SendsInTurn (target.requests operation slice) client.events ∧
      (client.failure = none → Completes (target.requests operation slice) client.events) := by
  obtain ⟨hs, hc⟩ := turns_dial target script
  obtain ⟨hi, hw⟩ := turns_iterate operation slice.count slice.first peer clock
  constructor
  · exact (hs.append (hc peer hd) hi).append_setup isSetup_close
  · intro hf
    have hn := Option.map_eq_none_iff.mp hf
    exact ((hc peer hd).append (hw hn)).append_setup isSetup_close

theorem runClient_of_error {target : Target} {script : Script} {cause : OpenError}
    (h : (target.dial script).result = .error cause) (operation : Operation) (slice : Slice) :
    target.runClient operation slice script = (target.dial script).leave := by
  simp only [Target.runClient, h]

theorem runClient_of_ok {target : Target} {script : Script} {peer : Peer}
    (h : (target.dial script).result = .ok peer) (operation : Operation) (slice : Slice) :
    target.runClient operation slice script =
      (target.dial script).continueWith operation
        (operation.iterate slice.count slice.first peer script.clock) := by
  simp only [Target.runClient, h]

theorem turns_runClient (target : Target) (operation : Operation) (slice : Slice)
    (script : Script) :
    let client := target.runClient operation slice script
    SendsInTurn (target.requests operation slice) client.events ∧
      (client.failure = none → Completes (target.requests operation slice) client.events) := by
  cases hd : (target.dial script).result with
  | error cause =>
    rw [runClient_of_error hd]
    refine ⟨sendsInTurn_leave target operation slice script, fun h => ?_⟩
    simp only [Dialled.leave, hd] at h
    cases h
  | ok peer =>
    rw [runClient_of_ok hd]
    exact turns_continue operation slice hd script.clock

end RespLoad
