import RespLoad.Proofs.Connection.Dial

/-!
# Interruptions and cuts

Interruptions are not seen by what uses a connection, and as long as everything is accepted in the end,
neither are the pieces in which it is. Peers are alike when their outcomes differ in nothing else; the
same calls come to the same on both and leave them alike. Of the calls themselves only the bytes that
were accepted and the replies that were read are compared; how many calls it took is not spoken of.
-/
namespace RespLoad

namespace SendOutcome

/-- The outcomes without the interruptions. -/
def settled (outcomes : List SendOutcome) : List SendOutcome :=
  outcomes.filter fun outcome => outcome ≠ .fail .interrupted

/-- Sending goes on behind this outcome: some number of bytes is accepted, which may be none, or the
call is interrupted. -/
def goesOn : SendOutcome → Bool
  | .accept _ => true
  | .fail errno => errno = .interrupted

/-- The outcomes differ in interruptions only, or sending goes on behind all of both. -/
def Alike (a b : List SendOutcome) : Prop :=
  settled a = settled b ∨ (a.all goesOn = true ∧ b.all goesOn = true)

end SendOutcome

/-- The outcomes of reading without the interruptions. -/
def ReadOutcome.settled (outcomes : List ReadOutcome) : List ReadOutcome :=
  outcomes.filter fun outcome => outcome ≠ .fail .interrupted

/-- What a connection carries: the bytes that were accepted and the replies that were read. -/
structure Traffic where
  accepted : Bytes
  replies : List Bytes
  deriving Repr, DecidableEq

/-- What the calls on a connection carried. -/
def traffic (events : List Event) : Traffic := ⟨acceptedBytes events, repliesRead events⟩

theorem traffic_append {a b c d : List Event} (h : traffic a = traffic b)
    (h' : traffic c = traffic d) : traffic (a ++ c) = traffic (b ++ d) := by
  obtain ⟨haccepted, hreplies⟩ := Traffic.mk.inj h
  obtain ⟨haccepted', hreplies'⟩ := Traffic.mk.inj h'
  simp only [traffic, acceptedBytes_append, repliesRead_append, haccepted, hreplies, haccepted',
    hreplies']

section Sending

theorem sendAll_nil (outcomes : List SendOutcome) :
    sendAll [] outcomes = ⟨.ok (), [], outcomes⟩ := by
  cases outcomes <;> rfl

theorem sendAll_failed {payload : Bytes} {errno : Errno} (hne : payload ≠ [])
    (hi : errno ≠ .interrupted) (more : List SendOutcome) :
    sendAll payload (.fail errno :: more) =
      ⟨.error (IoError.ofSend errno), [.send payload (.fail errno)], more⟩ := by
  rw [sendAll, if_neg fun he => hne (List.isEmpty_iff.mp he)]
  exact if_neg hi

theorem traffic_sendAll (payload : Bytes) (outcomes : List SendOutcome) :
    traffic (sendAll payload outcomes).events =
      ⟨acceptedBytes (sendAll payload outcomes).events, []⟩ := by
  rw [traffic, (sending_sendAll payload outcomes).repliesRead]

/-- Without the interruptions, sending comes to the same and leaves the same, again without the
interruptions. -/
theorem sendAll_settled (payload : Bytes) (outcomes : List SendOutcome) :
    let sent := sendAll payload outcomes
    let calm := sendAll payload (SendOutcome.settled outcomes)
    calm.result = sent.result ∧ acceptedBytes calm.events = acceptedBytes sent.events ∧
      calm.unused = SendOutcome.settled sent.unused := by
  induction outcomes generalizing payload with
  | nil => cases payload <;> exact ⟨rfl, rfl, rfl⟩
  | cons outcome more ih =>
    cases payload with
    | nil =>
      rw [sendAll_nil, sendAll_nil]
      exact ⟨rfl, rfl, rfl⟩
    | cons b rest =>
      cases outcome with
      | accept count =>
        obtain ⟨hresult, haccepted, hunused⟩ := ih ((b :: rest).drop count)
        exact ⟨hresult, congrArg (_ ++ ·) haccepted, hunused⟩
      | fail errno =>
        by_cases hi : errno = .interrupted
        -- The run without interruptions does not make this call.
        · subst hi
          exact ih (b :: rest)
        · have hkept : SendOutcome.settled (.fail errno :: more) =
              .fail errno :: SendOutcome.settled more :=
            List.filter_cons_of_pos (by simpa using hi)
          have hne : b :: rest ≠ [] := List.cons_ne_nil b rest
          rw [hkept, sendAll_failed hne hi, sendAll_failed hne hi]
          exact ⟨rfl, rfl, rfl⟩

/-- If sending goes on behind every outcome, all of the payload is accepted. -/
theorem sendAll_goesOn (payload : Bytes) {outcomes : List SendOutcome}
    (h : outcomes.all SendOutcome.goesOn = true) :
    (sendAll payload outcomes).result = .ok () ∧
      (sendAll payload outcomes).unused.all SendOutcome.goesOn = true := by
  induction outcomes generalizing payload with
  | nil => exact ⟨rfl, rfl⟩
  | cons outcome more ih =>
    cases payload with
    | nil =>
      rw [sendAll_nil]
      exact ⟨rfl, h⟩
    | cons b rest =>
      have hall := h
      rw [List.all_cons, Bool.and_eq_true] at hall
      cases outcome with
      | accept count => exact ih ((b :: rest).drop count) hall.2
      | fail errno =>
        obtain rfl : errno = .interrupted := of_decide_eq_true hall.1
        exact ih (b :: rest) hall.2

/-- What two ways of sending have in common. -/
structure Sent.Alike (a b : Sent) : Prop where
  result : a.result = b.result
  traffic : traffic a.events = traffic b.events
  unused : SendOutcome.Alike a.unused b.unused

theorem sendAll_alike (payload : Bytes) {a b : List SendOutcome} (h : SendOutcome.Alike a b) :
    (sendAll payload a).Alike (sendAll payload b) := by
  rcases h with hsettled | ⟨ha, hb⟩
  · obtain ⟨hresult, haccepted, hunused⟩ := sendAll_settled payload a
    obtain ⟨hresult', haccepted', hunused'⟩ := sendAll_settled payload b
    rw [hsettled] at hresult haccepted hunused
    refine ⟨hresult.symm.trans hresult', ?_, .inl (hunused.symm.trans hunused')⟩
    rw [traffic_sendAll, traffic_sendAll, haccepted.symm.trans haccepted']
  -- Both hand over the whole payload, in whatever pieces.
  · obtain ⟨hresult, hunused⟩ := sendAll_goesOn payload ha
    obtain ⟨hresult', hunused'⟩ := sendAll_goesOn payload hb
    have haccepted := (sending_sendAll payload a).accepted.2
    have haccepted' := (sending_sendAll payload b).accepted.2
    rw [hresult] at haccepted
    rw [hresult'] at haccepted'
    refine ⟨hresult.trans hresult'.symm, ?_, .inr ⟨hunused, hunused'⟩⟩
    rw [traffic_sendAll, traffic_sendAll, haccepted rfl, haccepted' rfl]

end Sending

section Reading

theorem traffic_receive (lasting : LastingOutcome) (outcomes : List ReadOutcome) :
    traffic (receive lasting outcomes).events =
      ⟨[], (receive lasting outcomes).result.toOption.toList⟩ := by
  have hreading := reading_receive lasting outcomes
  rw [traffic, hreading.acceptedBytes, hreading.repliesRead]

/-- What a read that is not interrupted leaves does not depend on interruptions further on. -/
theorem deliver_settled (outcome : ReadOutcome) (more : List ReadOutcome) :
    (deliver outcome (ReadOutcome.settled more)).result = (deliver outcome more).result ∧
      (deliver outcome (ReadOutcome.settled more)).unused =
        ReadOutcome.settled (deliver outcome more).unused := by
  cases outcome with
  | fail errno => exact ⟨rfl, rfl⟩
  | data bytes =>
    refine ⟨rfl, ?_⟩
    simp only [deliver]
    split <;> rfl

theorem receive_settled (lasting : LastingOutcome) (outcomes : List ReadOutcome) :
    let received := receive lasting outcomes
    let calm := receive lasting (ReadOutcome.settled outcomes)
    calm.result = received.result ∧ calm.unused = ReadOutcome.settled received.unused := by
  induction outcomes with
  | nil => exact deliver_settled lasting.outcome []
  | cons outcome more ih =>
    by_cases hi : outcome = .fail .interrupted
    · subst hi
      exact ih
    · have hkept : ReadOutcome.settled (outcome :: more) = outcome :: ReadOutcome.settled more :=
        List.filter_cons_of_pos (by simpa using hi)
      rw [hkept, receive, receive, if_neg hi, if_neg hi]
      exact deliver_settled outcome more

theorem receive_alike (lasting : LastingOutcome) {a b : List ReadOutcome}
    (h : ReadOutcome.settled a = ReadOutcome.settled b) :
    (receive lasting a).result = (receive lasting b).result ∧
      ReadOutcome.settled (receive lasting a).unused =
        ReadOutcome.settled (receive lasting b).unused := by
  obtain ⟨hresult, hunused⟩ := receive_settled lasting a
  obtain ⟨hresult', hunused'⟩ := receive_settled lasting b
  rw [h] at hresult hunused
  exact ⟨hresult.symm.trans hresult', hunused.symm.trans hunused'⟩

end Reading

/-- The peers differ in interruptions and, where sending goes on behind every outcome, in cuts only. -/
structure Peer.Alike (a b : Peer) : Prop where
  sends : SendOutcome.Alike a.sends b.sends
  reads : ReadOutcome.settled a.reads = ReadOutcome.settled b.reads
  lasting : a.lasting = b.lasting

/-- Two stretches of calls came to the same and leave their peers alike. -/
structure Stretch.Alike {α : Type} (a b : Stretch α) : Prop where
  result : a.result = b.result
  traffic : traffic a.events = traffic b.events
  peer : a.peer.Alike b.peer

namespace Peer.Alike

variable {a b : Peer}

theorem send (h : a.Alike b) (payload : Bytes) : (a.send payload).Alike (b.send payload) := by
  have hsent := sendAll_alike payload h.sends
  exact ⟨hsent.result, hsent.traffic, hsent.unused, h.reads, h.lasting⟩

theorem read (h : a.Alike b) : a.read.Alike b.read := by
  obtain ⟨sends, reads, lasting⟩ := a
  obtain ⟨sends', reads', lasting'⟩ := b
  obtain ⟨hsends, hreads, hlasting⟩ := h
  cases hlasting
  obtain ⟨hresult, hunused⟩ := receive_alike lasting hreads
  refine ⟨hresult, ?_, hsends, hunused, rfl⟩
  simp only [Peer.read, traffic_receive, hresult]

theorem roundTrip (h : a.Alike b) (command : Command) :
    (a.roundTrip command).Alike (b.roundTrip command) := by
  have hsent := h.send command.encode
  cases hr : (b.send command.encode).result with
  | error cause =>
    simp only [Peer.roundTrip, hsent.result.trans hr, hr]
    exact ⟨rfl, hsent.traffic, hsent.peer⟩
  | ok done =>
    have hread := hsent.peer.read
    simp only [Peer.roundTrip, hsent.result.trans hr, hr]
    exact ⟨hread.result, traffic_append hsent.traffic hread.traffic, hread.peer⟩

end Peer.Alike

/-- The scripts differ in their peers only, and these are alike. -/
structure Script.Alike (a b : Script) : Prop where
  lookup : a.lookup = b.lookup
  faults : a.faults = b.faults
  peer : a.peer.Alike b.peer
  clock : a.clock = b.clock

namespace Script

theorem Alike.refl (script : Script) : script.Alike script := ⟨rfl, rfl, ⟨.inl rfl, rfl, rfl⟩, rfl⟩

/-- The script without the interruptions. -/
def uninterrupted (script : Script) : Script :=
  { script with
    peer :=
      { script.peer with
        sends := SendOutcome.settled script.peer.sends
        reads := ReadOutcome.settled script.peer.reads } }

theorem alike_uninterrupted (script : Script) : script.Alike script.uninterrupted := by
  have hsends : SendOutcome.settled (SendOutcome.settled script.peer.sends) =
      SendOutcome.settled script.peer.sends := by
    simp only [SendOutcome.settled, List.filter_filter, Bool.and_self]
  have hreads : ReadOutcome.settled (ReadOutcome.settled script.peer.reads) =
      ReadOutcome.settled script.peer.reads := by
    simp only [ReadOutcome.settled, List.filter_filter, Bool.and_self]
  exact ⟨rfl, rfl, ⟨.inl hsends.symm, hreads.symm, rfl⟩, rfl⟩

/-- The script is left as it is, or sending goes on behind every outcome and is answered in another way
of this kind. -/
inductive Recut (script : Script) : Script → Prop
  | same : Recut script script
  | sends (sends : List SendOutcome) (h : script.peer.sends.all SendOutcome.goesOn = true)
      (h' : sends.all SendOutcome.goesOn = true) :
      Recut script { script with peer := { script.peer with sends := sends } }

theorem Recut.alike {script other : Script} (h : script.Recut other) : script.Alike other := by
  cases h with
  | same => exact .refl script
  | sends sends h h' => exact ⟨rfl, rfl, ⟨.inr ⟨h, h'⟩, rfl, rfl⟩, rfl⟩

end Script

/-- No connection was opened, for the same reason, or both were and their peers are alike. -/
inductive OpenedAlike : Except OpenError Peer → Except OpenError Peer → Prop
  | refused (cause : OpenError) : OpenedAlike (.error cause) (.error cause)
  | opened {a b : Peer} (h : a.Alike b) : OpenedAlike (.ok a) (.ok b)

/-- Dialling came to the same twice. -/
structure Dialled.Alike (a b : Dialled) : Prop where
  result : OpenedAlike a.result b.result
  traffic : traffic a.events = traffic b.events
  log : a.log = b.log

namespace Target

theorem authenticate_alike (target : Target) {a b : Peer} (h : a.Alike b) :
    OpenedAlike (target.authenticate a).1 (target.authenticate b).1 ∧
      traffic (target.authenticate a).2 = traffic (target.authenticate b).2 := by
  have htrip := h.roundTrip target.authCommand
  constructor
  · cases hr : (b.roundTrip target.authCommand).result with
    | error cause =>
      simp only [authenticate, htrip.result.trans hr, hr]
      exact .refused _
    | ok reply =>
      simp only [authenticate, htrip.result.trans hr, hr]
      split
      · exact .opened htrip.peer
      · exact .refused _
  · rw [authenticate_events, authenticate_events]
    exact htrip.traffic

theorem greet_alike (target : Target) {a b : Script} (h : a.Alike b) :
    OpenedAlike (target.greet a).1 (target.greet b).1 ∧
      traffic (target.greet a).2 = traffic (target.greet b).2 := by
  unfold greet
  split
  · exact ⟨.opened h.peer, rfl⟩
  · exact target.authenticate_alike h.peer

theorem dial_alike (target : Target) {a b : Script} (h : a.Alike b) :
    (target.dial a).Alike (target.dial b) := by
  unfold dial
  rw [h.lookup, h.faults]
  split
  · exact ⟨.refused _, rfl, rfl⟩
  · split
    · exact ⟨.refused _, rfl, rfl⟩
    · obtain ⟨hopened, htalk⟩ := target.greet_alike h
      cases ha : target.greet a with
      | mk result talk =>
        cases hb : target.greet b with
        | mk result' talk' =>
          rw [ha, hb] at hopened htalk
          cases hopened with
          | refused cause =>
            exact ⟨.refused cause, traffic_append (traffic_append rfl htalk) rfl, rfl⟩
          | opened hpeer => exact ⟨.opened hpeer, traffic_append rfl htalk, rfl⟩

end Target

end RespLoad
