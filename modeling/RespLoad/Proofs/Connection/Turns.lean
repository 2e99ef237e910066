import RespLoad.Connection.Transfer

/-!
# Requests sent in turn

What one connection shows of a client that has at most one request under way. `SendsInTurn` speaks
about every moment of the calls: an offer is the rest of one request, made when exactly the bytes
before it have been accepted and each request before it has brought one reply. `Completes` is about
the end. Calls that neither send nor read are not restricted.
-/
namespace RespLoad

/-- The bytes that a successful read brought. -/
def Event.delivered? : Event → Option Bytes
  | .receive (.data bytes) => some bytes
  | _ => none

/-- The bytes that the socket has taken over. -/
def acceptedBytes (events : List Event) : Bytes := events.flatMap Event.accepted

/-- What the successful reads brought, read by read. -/
def repliesRead (events : List Event) : List Bytes := events.filterMap Event.delivered?

/-- The requests as one stream of bytes. -/
def wire (requests : List Command) : Bytes := requests.flatMap Command.encode

/-- After the calls in `past` it is the turn of the request whose bytes end in `rest`: all before
`rest` was accepted, and there were as many successful reads as there are requests before it. -/
def Turn (requests : List Command) (past : List Event) (rest : Bytes) : Prop :=
  rest ≠ [] ∧ ∃ i request done, requests[i]? = some request ∧ request.encode = done ++ rest ∧
    acceptedBytes past = wire (requests.take i) ++ done ∧ (repliesRead past).length = i

/-- At every moment the accepted bytes are a start of the stream, and what is offered is what is left
of the request whose turn it is. -/
structure SendsInTurn (requests : List Command) (events : List Event) : Prop where
  accepted : ∀ past, past <+: events → acceptedBytes past <+: wire requests
  offered : ∀ past rest outcome future, events = past ++ .send rest outcome :: future →
    Turn requests past rest

/-- All was accepted, and each request has brought one reply. -/
structure Completes (requests : List Command) (events : List Event) : Prop where
  accepted : acceptedBytes events = wire requests
  replies : (repliesRead events).length = requests.length

theorem acceptedBytes_append (a b : List Event) :
    acceptedBytes (a ++ b) = acceptedBytes a ++ acceptedBytes b := List.flatMap_append

theorem repliesRead_append (a b : List Event) :
    repliesRead (a ++ b) = repliesRead a ++ repliesRead b := List.filterMap_append

theorem wire_append (a b : List Command) : wire (a ++ b) = wire a ++ wire b :=
  List.flatMap_append

theorem acceptedBytes_mono {past events : List Event} (h : past <+: events) :
    acceptedBytes past <+: acceptedBytes events := by
  obtain ⟨future, rfl⟩ := h
  rw [acceptedBytes_append]
  exact List.prefix_append _ _

/-- A call in a sequence of two parts stands in the first or in the second. -/
theorem split_of_append {a b past future : List Event} {event : Event}
    (h : a ++ b = past ++ event :: future) :
    (∃ between, a = past ++ event :: between) ∨
      (∃ later, past = a ++ later ∧ b = later ++ event :: future) := by
  rcases List.append_eq_append_iff.mp h with ⟨later, hp, hb⟩ | ⟨between, ha, hf⟩
  · exact Or.inr ⟨later, hp, hb⟩
  · cases between with
    | nil =>
      rw [List.append_nil] at ha
      rw [List.nil_append] at hf
      exact Or.inr ⟨[], by rw [List.append_nil, ha], hf.symm⟩
    | cons first between =>
      obtain ⟨rfl, _⟩ := List.cons.inj hf
      exact Or.inl ⟨between, ha⟩

/-- What holds of the accepted bytes at the end decides about every moment before. -/
theorem SendsInTurn.of_end {requests : List Command} {events : List Event}
    (ha : acceptedBytes events <+: wire requests)
    (ho : ∀ past rest outcome future, events = past ++ .send rest outcome :: future →
      Turn requests past rest) : SendsInTurn requests events :=
  ⟨fun _ hp => (acceptedBytes_mono hp).trans ha, ho⟩

/-- What holds at every moment holds of the calls up to any moment. -/
theorem SendsInTurn.upTo {requests : List Command} {start events : List Event}
    (h : SendsInTurn requests events) (hs : start <+: events) : SendsInTurn requests start := by
  constructor
  · exact fun past hp => h.accepted past (hp.trans hs)
  · intro past rest outcome future he
    obtain ⟨later, rfl⟩ := hs
    exact h.offered past rest outcome (future ++ later) (by rw [he, List.append_assoc]; rfl)

/-- Requests that are still to come do not matter. -/
theorem SendsInTurn.weaken {requests : List Command} {events : List Event}
    (h : SendsInTurn requests events) (more : List Command) :
    SendsInTurn (requests ++ more) events := by
  constructor
  · intro past hp
    rw [wire_append]
    exact (h.accepted past hp).trans (List.prefix_append _ _)
  · intro past rest outcome future he
    obtain ⟨hne, i, request, done, hi, hrest, hacc, hread⟩ := h.offered past rest outcome future he
    have hlt : i < requests.length := (List.getElem?_eq_some_iff.mp hi).1
    refine ⟨hne, i, request, done, ?_, hrest, ?_, hread⟩
    · rw [List.getElem?_append_left hlt, hi]
    · rw [List.take_append_of_le_length (by omega), hacc]

/-- Two conversations, of which the first is complete, are one. -/
theorem SendsInTurn.append {first second : List Command} {a b : List Event}
    (ha : SendsInTurn first a) (hc : Completes first a) (hb : SendsInTurn second b) :
    SendsInTurn (first ++ second) (a ++ b) := by
  apply SendsInTurn.of_end
  · obtain ⟨left, hl⟩ := hb.accepted b (List.prefix_refl b)
    rw [acceptedBytes_append, wire_append, hc.accepted, ← hl, ← List.append_assoc]
    exact List.prefix_append _ _
  · intro past rest outcome future he
    rcases split_of_append he with ⟨between, hin⟩ | ⟨later, rfl, hin⟩
    · exact (ha.weaken second).offered past rest outcome between hin
    · obtain ⟨hne, i, request, done, hi, hrest, hacc, hread⟩ :=
        hb.offered later rest outcome future hin
      refine ⟨hne, first.length + i, request, done, ?_, hrest, ?_, ?_⟩
      · rw [List.getElem?_append_right (Nat.le_add_right _ _), Nat.add_sub_cancel_left, hi]
      · rw [acceptedBytes_append, hc.accepted, hacc, List.take_length_add_append, wire_append,
          List.append_assoc]
      · rw [repliesRead_append, List.length_append, hc.replies, hread]

theorem Completes.append {first second : List Command} {a b : List Event}
    (ha : Completes first a) (hb : Completes second b) :
    Completes (first ++ second) (a ++ b) := by
  constructor
  · rw [acceptedBytes_append, wire_append, ha.accepted, hb.accepted]
  · rw [repliesRead_append, List.length_append, List.length_append, ha.replies, hb.replies]

/-- A call that neither sends nor reads. -/
def Event.isSetup : Event → Bool
  | .send _ _ | .receive _ => false
  | _ => true

theorem acceptedBytes_of_setup {events : List Event} (h : ∀ event ∈ events, event.isSetup = true) :
    acceptedBytes events = [] := by
  rw [acceptedBytes, List.flatMap_eq_nil_iff]
  intro event he
  have hs := h event he
  cases event <;> first | rfl | cases hs

theorem repliesRead_of_setup {events : List Event} (h : ∀ event ∈ events, event.isSetup = true) :
    repliesRead events = [] := by
  rw [repliesRead, List.filterMap_eq_nil_iff]
  intro event he
  have hs := h event he
  cases event <;> first | rfl | cases hs

theorem sendsInTurn_of_setup {events : List Event} (h : ∀ event ∈ events, event.isSetup = true) :
    SendsInTurn [] events := by
  apply SendsInTurn.of_end
  · rw [acceptedBytes_of_setup h]
    exact List.nil_prefix
  · intro past rest outcome future he
    have hs := h (.send rest outcome) (by rw [he]; simp)
    cases hs

theorem completes_of_setup {events : List Event} (h : ∀ event ∈ events, event.isSetup = true) :
    Completes [] events :=
  ⟨acceptedBytes_of_setup h, by rw [repliesRead_of_setup h]; rfl⟩

theorem SendsInTurn.append_setup {requests : List Command} {events last : List Event}
    (h : SendsInTurn requests events) (hl : ∀ event ∈ last, event.isSetup = true) :
    SendsInTurn requests (events ++ last) := by
  apply SendsInTurn.of_end
  · rw [acceptedBytes_append, acceptedBytes_of_setup hl, List.append_nil]
    exact h.accepted events (List.prefix_refl events)
  · intro past rest outcome future he
    rcases split_of_append he with ⟨between, hin⟩ | ⟨later, rfl, hin⟩
    · exact h.offered past rest outcome between hin
    · have hs := hl (.send rest outcome) (by rw [hin]; simp)
      cases hs

theorem Completes.append_setup {requests : List Command} {events last : List Event}
    (h : Completes requests events) (hl : ∀ event ∈ last, event.isSetup = true) :
    Completes requests (events ++ last) := by
  have ha := h.append (completes_of_setup hl)
  rwa [List.append_nil] at ha

end RespLoad
