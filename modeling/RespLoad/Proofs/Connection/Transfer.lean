import RespLoad.Proofs.Connection.Turns

/-!
# Sending and reading, call by call

Whatever the outcomes are, sending is a sequence of offers, each of all that is left, and reading is
a sequence of reads of which only the last can succeed. From this a round trip is a turn of one
request, whether it comes to its end or not.
-/
namespace RespLoad

/-- The calls that send a payload, and whether all of it was accepted. Only an interruption lets it go on
after a failure. -/
inductive Sending : Bytes → List Event → Bool → Prop
  | nothing : Sending [] [] true
  | failed {payload : Bytes} {errno : Errno} (hne : payload ≠ []) :
      Sending payload [.send payload (.fail errno)] false
  | offer {payload rest : Bytes} {outcome : SendOutcome} {events : List Event} {finished : Bool}
      (hne : payload ≠ []) (hi : ∀ errno, outcome = .fail errno → errno = .interrupted)
      (ht : (Event.send payload outcome).accepted ++ rest = payload)
      (hs : Sending rest events finished) :
      Sending payload (.send payload outcome :: events) finished

theorem sending_sendAll (payload : Bytes) (outcomes : List SendOutcome) :
    Sending payload (sendAll payload outcomes).events (sendAll payload outcomes).result.toBool := by
  induction outcomes generalizing payload with
  | nil =>
    cases payload with
    | nil => exact .nothing
    | cons b rest =>
      refine .offer (List.cons_ne_nil b rest) (fun _ h => by cases h) ?_ .nothing
      rw [Event.accepted, List.take_length, List.append_nil]
  | cons outcome more ih =>
    cases payload with
    | nil => exact .nothing
    | cons b rest =>
      have hne := List.cons_ne_nil b rest
      cases outcome with
      | accept count =>
        refine .offer hne (fun _ h => by cases h) ?_ (ih ((b :: rest).drop count))
        rw [Event.accepted, ← List.take_eq_take_min, List.take_append_drop]
      | fail errno =>
        by_cases hi : errno = .interrupted
        · simp only [sendAll, List.isEmpty_cons, Bool.false_eq_true, if_false, if_pos hi]
          exact .offer hne (fun _ h => by cases h; exact hi) rfl (ih (b :: rest))
        · simp only [sendAll, List.isEmpty_cons, Bool.false_eq_true, if_false, if_neg hi]
          exact .failed hne

theorem Sending.offered {payload : Bytes} {events : List Event} {finished : Bool}
    (h : Sending payload events finished) (past : List Event) (rest : Bytes)
    (outcome : SendOutcome) (future : List Event)
    (he : events = past ++ .send rest outcome :: future) :
    rest ≠ [] ∧ acceptedBytes past ++ rest = payload := by
  induction h generalizing past with
  | nothing => simp at he
  | failed hne =>
    obtain ⟨rfl, hs⟩ | ⟨_, _, hs⟩ := List.append_eq_cons_iff.mp he.symm
    · cases hs; exact ⟨hne, rfl⟩
    · simp at hs
  | @offer payload left outcome events finished hne _ ht _ ih =>
    obtain ⟨rfl, hs⟩ | ⟨earlier, rfl, hs⟩ := List.append_eq_cons_iff.mp he.symm
    · cases hs; exact ⟨hne, rfl⟩
    · obtain ⟨hr, hp⟩ := ih earlier hs
      refine ⟨hr, ?_⟩
      calc acceptedBytes (.send payload outcome :: earlier) ++ rest
          = (Event.send payload outcome).accepted ++ (acceptedBytes earlier ++ rest) :=
            List.append_assoc _ _ _
        _ = (Event.send payload outcome).accepted ++ left := by rw [hp]
        _ = payload := ht

theorem Sending.accepted {payload : Bytes} {events : List Event} {finished : Bool}
    (h : Sending payload events finished) :
    acceptedBytes events <+: payload ∧ (finished = true → acceptedBytes events = payload) := by
  induction h with
  | nothing => exact ⟨List.prefix_refl [], fun _ => rfl⟩
  | failed hne => exact ⟨List.nil_prefix, fun hf => Bool.noConfusion hf⟩
  | @offer payload left outcome events finished hne _ ht _ ih =>
    have hc : acceptedBytes (.send payload outcome :: events) =
      (Event.send payload outcome).accepted ++ acceptedBytes events := rfl
    constructor
    · obtain ⟨missing, hm⟩ := ih.1
      exact ⟨missing, by rw [hc, List.append_assoc, hm, ht]⟩
    · exact fun hf => by rw [hc, ih.2 hf, ht]

theorem Sending.repliesRead {payload : Bytes} {events : List Event} {finished : Bool}
    (h : Sending payload events finished) : repliesRead events = [] := by
  induction h with
  | nothing => rfl
  | failed hne => rfl
  | offer hne _ ht _ ih => exact ih

/-- The calls of one read, begun again while it is interrupted, and what it brought. -/
inductive Reading : List Event → Option Bytes → Prop
  | data (bytes : Bytes) : Reading [.receive (.data bytes)] (some bytes)
  | failed (errno : Errno) : Reading [.receive (.fail errno)] none
  | again {events : List Event} {reply : Option Bytes} (hr : Reading events reply) :
      Reading (.receive (.fail .interrupted) :: events) reply

theorem reading_deliver (outcome : ReadOutcome) (more : List ReadOutcome) :
    Reading (deliver outcome more).events (deliver outcome more).result.toOption := by
  cases outcome with
  | data bytes => exact .data _
  | fail errno => exact .failed errno

theorem reading_receive (lasting : LastingOutcome) (outcomes : List ReadOutcome) :
    Reading (receive lasting outcomes).events (receive lasting outcomes).result.toOption := by
  induction outcomes with
  | nil => exact reading_deliver _ _
  | cons outcome more ih =>
    by_cases hi : outcome = .fail .interrupted
    · rw [receive, if_pos hi, hi]
      exact .again ih
    · rw [receive, if_neg hi]
      exact reading_deliver _ _

theorem Reading.acceptedBytes {events : List Event} {reply : Option Bytes}
    (h : Reading events reply) : acceptedBytes events = [] := by
  induction h with
  | data bytes => rfl
  | failed errno => rfl
  | again _ ih => exact ih

theorem Reading.repliesRead {events : List Event} {reply : Option Bytes}
    (h : Reading events reply) : repliesRead events = reply.toList := by
  induction h with
  | data bytes => rfl
  | failed errno => rfl
  | again _ ih => exact ih

theorem Reading.not_send {events : List Event} {reply : Option Bytes}
    (h : Reading events reply) (payload : Bytes) (outcome : SendOutcome) :
    Event.send payload outcome ∉ events := by
  induction h with
  | data bytes => simp
  | failed errno => simp
  | again _ ih => simp [ih]

/-- The calls of a round trip: what sends the request, and a read behind it if all was accepted. -/
inductive RoundTrip (request : Command) : List Event → Option Bytes → Prop
  | unsent {sends : List Event} (hs : Sending request.encode sends false) :
      RoundTrip request sends none
  | read {sends reads : List Event} {reply : Option Bytes}
      (hs : Sending request.encode sends true) (hr : Reading reads reply) :
      RoundTrip request (sends ++ reads) reply

theorem roundTrip_roundTrip (peer : Peer) (request : Command) :
    RoundTrip request (peer.roundTrip request).events (peer.roundTrip request).result.toOption := by
  have hs := sending_sendAll request.encode peer.sends
  cases hr : (sendAll request.encode peer.sends).result with
  | error cause =>
    rw [hr] at hs
    simp only [Peer.roundTrip, Peer.send, hr]
    exact .unsent hs
  | ok done =>
    rw [hr] at hs
    simp only [Peer.roundTrip, Peer.send, hr]
    exact .read hs (reading_receive _ _)

theorem RoundTrip.turn_of_send {request : Command} {sends past future : List Event} {rest : Bytes}
    {outcome : SendOutcome} {finished : Bool} (h : Sending request.encode sends finished)
    (he : sends = past ++ .send rest outcome :: future) : Turn [request] past rest := by
  obtain ⟨hne, hp⟩ := h.offered past rest outcome future he
  have hr := h.repliesRead
  rw [he, repliesRead_append, List.append_eq_nil_iff] at hr
  refine ⟨hne, 0, request, acceptedBytes past, rfl, hp.symm, rfl, ?_⟩
  rw [hr.1]
  rfl

/-- A round trip takes one turn, and a successful one completes it. -/
theorem RoundTrip.sendsInTurn {request : Command} {events : List Event} {reply : Option Bytes}
    (h : RoundTrip request events reply) : SendsInTurn [request] events := by
  have hw : wire [request] = request.encode := List.append_nil _
  cases h with
  | unsent hs =>
    apply SendsInTurn.of_end
    · rw [hw]
      exact hs.accepted.1
    · exact fun past rest outcome future he => turn_of_send hs he
  | @read sends reads reply hs hr =>
    apply SendsInTurn.of_end
    · rw [hw, acceptedBytes_append, hr.acceptedBytes, List.append_nil]
      exact hs.accepted.1
    · intro past rest outcome future he
      rcases split_of_append he with ⟨between, hin⟩ | ⟨later, rfl, hin⟩
      · exact turn_of_send hs hin
      · exact absurd (by rw [hin]; simp) (hr.not_send rest outcome)

/-- A round trip brings one reply at most, the one that it answers with. -/
theorem RoundTrip.repliesRead {request : Command} {events : List Event} {reply : Option Bytes}
    (h : RoundTrip request events reply) : repliesRead events = reply.toList := by
  cases h with
  | unsent hs => exact hs.repliesRead
  | read hs hr =>
    rw [repliesRead_append, hs.repliesRead, hr.repliesRead]
    rfl

theorem RoundTrip.completes {request : Command} {events : List Event} {reply : Bytes}
    (h : RoundTrip request events (some reply)) : Completes [request] events := by
  have hreplies := h.repliesRead
  cases h with
  | @read sends reads _ hs hr =>
    constructor
    · rw [acceptedBytes_append, hr.acceptedBytes, List.append_nil, hs.accepted.2 rfl]
      exact (List.append_nil _).symm
    · rw [hreplies]
      rfl

end RespLoad
