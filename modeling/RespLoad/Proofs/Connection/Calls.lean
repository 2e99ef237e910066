import RespLoad.Proofs.Connection.Transfer
import RespLoad.Driver.Thread

/-!
# Transfers as single calls

Sending and reading can be followed one call at a time: after a call that was interrupted or took
only a part, the same transfer goes on with what is left, and any other call ends it.
-/
namespace RespLoad

/-- The same after one call more at the front. -/
def Stretch.after {α : Type} (event : Event) (stretch : Stretch α) : Stretch α :=
  { stretch with events := event :: stretch.events }

namespace Peer

/-- A round trip of which only some bytes are still to be sent. -/
def finishRoundTrip (peer : Peer) (unsent : Bytes) : Stretch Bytes :=
  let sent := peer.send unsent
  match sent.result with
  | .error cause => ⟨.error cause, sent.events, sent.peer⟩
  | .ok () =>
    let received := sent.peer.read
    { received with events := sent.events ++ received.events }

theorem roundTrip_eq (peer : Peer) (command : Command) :
    peer.roundTrip command = peer.finishRoundTrip command.encode := rfl

theorem send_nil (peer : Peer) : peer.send [] = ⟨.ok (), [], peer⟩ := by
  obtain ⟨sends, reads, lasting⟩ := peer
  cases sends <;> rfl

theorem send_accept {peer after : Peer} {unsent : Bytes} {count : Nat} (hne : unsent ≠ [])
    (h : peer.sendOnce unsent = (.accept count, after)) :
    peer.send unsent =
      (after.send (unsent.drop count)).after (.send unsent (.accept count)) := by
  obtain ⟨sends, reads, lasting⟩ := peer
  obtain ⟨b, rest, rfl⟩ := List.exists_cons_of_ne_nil hne
  match sends, h with
  | [], h =>
    cases h
    rw [List.drop_length, send_nil]
    rfl
  | .accept limit :: more, h =>
    cases h
    have hd : (b :: rest).drop (min limit (b :: rest).length) = (b :: rest).drop limit :=
      List.drop_eq_drop_min.symm
    rw [hd]
    rfl
  | .fail errno :: more, h => cases h

theorem send_interrupted {peer after : Peer} {unsent : Bytes} (hne : unsent ≠ [])
    (h : peer.sendOnce unsent = (.fail .interrupted, after)) :
    peer.send unsent = (after.send unsent).after (.send unsent (.fail .interrupted)) := by
  obtain ⟨sends, reads, lasting⟩ := peer
  obtain ⟨b, rest, rfl⟩ := List.exists_cons_of_ne_nil hne
  match sends, h with
  | [], h => cases h
  | .accept limit :: more, h => cases h
  | .fail errno :: more, h => cases h; rfl

theorem send_failed {peer after : Peer} {unsent : Bytes} {errno : Errno} (hne : unsent ≠ [])
    (hi : errno ≠ .interrupted) (h : peer.sendOnce unsent = (.fail errno, after)) :
    peer.send unsent = ⟨.error (IoError.ofSend errno), [.send unsent (.fail errno)], after⟩ := by
  obtain ⟨sends, reads, lasting⟩ := peer
  obtain ⟨b, rest, rfl⟩ := List.exists_cons_of_ne_nil hne
  match sends, h with
  | [], h => cases h
  | .accept limit :: more, h => cases h
  | .fail errno' :: more, h =>
    cases h
    simp only [send, sendAll, List.isEmpty_cons, Bool.false_eq_true, if_false, if_neg hi]

theorem read_interrupted {peer after : Peer}
    (h : peer.readOnce = (.fail .interrupted, after)) :
    peer.read = after.read.after (.receive (.fail .interrupted)) := by
  obtain ⟨sends, reads, lasting⟩ := peer
  match reads, h with
  | [], h =>
    obtain ⟨outcome, settled⟩ := lasting
    cases outcome with
    | data bytes => cases h
    | fail errno => cases h; exact absurd rfl settled
  | .data bytes :: more, h => cases h
  | .fail errno :: more, h => cases h; rfl

theorem read_data {peer after : Peer} {reply : Bytes} (h : peer.readOnce = (.data reply, after)) :
    peer.read = ⟨.ok reply, [.receive (.data reply)], after⟩ := by
  obtain ⟨sends, reads, lasting⟩ := peer
  match reads, h with
  | [], h =>
    obtain ⟨outcome, settled⟩ := lasting
    cases outcome with
    | data bytes => cases h; rfl
    | fail errno => cases h
  | .data bytes :: more, h => cases h; rfl
  | .fail errno :: more, h => cases h

theorem read_failed {peer after : Peer} {errno : Errno} (hi : errno ≠ .interrupted)
    (h : peer.readOnce = (.fail errno, after)) :
    peer.read = ⟨.error (IoError.ofRead errno), [.receive (.fail errno)], after⟩ := by
  obtain ⟨sends, reads, lasting⟩ := peer
  match reads, h with
  | [], h =>
    obtain ⟨outcome, settled⟩ := lasting
    cases outcome with
    | data bytes => cases h
    | fail errno => cases h; rfl
  | .data bytes :: more, h => cases h
  | .fail errno' :: more, h =>
    cases h
    have hne : ReadOutcome.fail errno ≠ .fail .interrupted := fun he => hi (ReadOutcome.fail.inj he)
    simp only [read, receive, if_neg hne, deliver]

theorem finishRoundTrip_nil (peer : Peer) : peer.finishRoundTrip [] = peer.read := by
  rw [finishRoundTrip, send_nil]
  rfl

/-- A call that leaves something to send is one call of the round trip. -/
theorem finishRoundTrip_after {peer after : Peer} {unsent rest : Bytes} {event : Event}
    (h : peer.send unsent = (after.send rest).after event) :
    peer.finishRoundTrip unsent = (after.finishRoundTrip rest).after event := by
  unfold finishRoundTrip
  rw [h]
  cases hr : (after.send rest).result with
  | error cause => simp only [Stretch.after, hr]
  | ok done => simp only [Stretch.after, hr, List.cons_append]

theorem finishRoundTrip_failed {peer after : Peer} {unsent : Bytes} {cause : IoError}
    {events : List Event} (h : peer.send unsent = ⟨.error cause, events, after⟩) :
    peer.finishRoundTrip unsent = ⟨.error cause, events, after⟩ := by
  rw [finishRoundTrip, h]

end Peer

end RespLoad
