import RespLoad.Proofs.Connection.Dial

/-!
# What a peer delivers

What the server sends reaches a connection in pieces, one for each successful read: at most
`readLimit` bytes, and what is left of a longer reply before anything that the server sent after it.
The pieces are determined by the server's script, and whatever a client does, what it reads is a first
part of them.
-/
namespace RespLoad

/-- The reads that data is delivered in. No data, which says that the server has closed, is one read. -/
def dataPieces (bytes : Bytes) : List Bytes :=
  if bytes.length ≤ readLimit then [bytes]
  else bytes.take readLimit :: dataPieces (bytes.drop readLimit)
termination_by bytes.length
decreasing_by
  have hlimit : 0 < readLimit := by decide
  simp only [List.length_drop]
  omega

/-- The successful reads that an outcome is good for. -/
def ReadOutcome.pieces : ReadOutcome → List Bytes
  | .data bytes => dataPieces bytes
  | .fail _ => []

/-- The successful reads of a peer until its lasting outcome has come so many times. -/
def Peer.pieces (peer : Peer) (rounds : Nat) : List Bytes :=
  (peer.reads ++ List.replicate rounds peer.lasting.outcome).flatMap ReadOutcome.pieces

/-- From one state of a peer to another these reads succeed. -/
def Peer.Delivers (peer : Peer) (replies : List Bytes) (later : Peer) : Prop :=
  ∃ used, ∀ rounds, peer.pieces (used + rounds) = replies ++ later.pieces rounds

/-- The successful reads among the calls are the first that the peer is good for. -/
def Peer.Answers (peer : Peer) (events : List Event) : Prop :=
  ∃ rounds, repliesRead events <+: peer.pieces rounds

theorem length_le_of_mem_dataPieces {bytes piece : Bytes} (h : piece ∈ dataPieces bytes) :
    piece.length ≤ readLimit := by
  fun_induction dataPieces bytes with
  | case1 bytes hle =>
    rw [List.mem_singleton.mp h]
    exact hle
  | case2 bytes hlong ih =>
    rcases List.mem_cons.mp h with rfl | hm
    · exact List.length_take_le _ _
    · exact ih hm

/-- Data is delivered whole, in order. -/
theorem flatten_dataPieces (bytes : Bytes) : (dataPieces bytes).flatten = bytes := by
  fun_induction dataPieces bytes with
  | case1 bytes hle => exact List.append_nil bytes
  | case2 bytes hlong ih => rw [List.flatten_cons, ih, List.take_append_drop]

/-- A read takes the first piece of data and leaves the others. -/
theorem dataPieces_eq (bytes : Bytes) :
    dataPieces bytes = bytes.take readLimit ::
      if (bytes.drop readLimit).isEmpty then [] else dataPieces (bytes.drop readLimit) := by
  rw [dataPieces]
  by_cases hle : bytes.length ≤ readLimit
  · have hempty : (bytes.drop readLimit).isEmpty = true :=
      List.isEmpty_iff.mpr (List.drop_eq_nil_iff.mpr hle)
    rw [if_pos hle, if_pos hempty, List.take_of_length_le hle]
  · have hmore : ¬ (bytes.drop readLimit).isEmpty = true := by
      rw [List.isEmpty_iff, List.drop_eq_nil_iff]
      exact hle
    rw [if_neg hle, if_neg hmore]

theorem length_le_of_mem_pieces {peer : Peer} {rounds : Nat} {piece : Bytes}
    (h : piece ∈ peer.pieces rounds) : piece.length ≤ readLimit := by
  obtain ⟨outcome, _, hp⟩ := List.mem_flatMap.mp h
  cases outcome with
  | data bytes => exact length_le_of_mem_dataPieces hp
  | fail errno => cases hp

theorem pieces_deliver (outcome : ReadOutcome) (more : List ReadOutcome) :
    (outcome :: more).flatMap ReadOutcome.pieces =
      repliesRead (deliver outcome more).events ++
        (deliver outcome more).unused.flatMap ReadOutcome.pieces := by
  cases outcome with
  | fail errno => rfl
  | data bytes =>
    rw [List.flatMap_cons, ReadOutcome.pieces, dataPieces_eq]
    simp only [deliver]
    split
    · rfl
    · rfl

/-- What a read brings is the first piece of what is to come. An interrupted read brings nothing. -/
theorem pieces_receive (lasting : LastingOutcome) (outcomes : List ReadOutcome) :
    ∃ used, ∀ rounds,
      (outcomes ++ List.replicate (used + rounds) lasting.outcome).flatMap ReadOutcome.pieces =
        repliesRead (receive lasting outcomes).events ++
          ((receive lasting outcomes).unused ++ List.replicate rounds lasting.outcome).flatMap
            ReadOutcome.pieces := by
  induction outcomes with
  | nil =>
    refine ⟨1, fun rounds => ?_⟩
    have hd := pieces_deliver lasting.outcome []
    rw [List.flatMap_cons, List.flatMap_nil, List.append_nil] at hd
    rw [List.nil_append, Nat.add_comm, List.replicate_succ, List.flatMap_cons, hd, receive,
      List.flatMap_append, List.append_assoc]
  | cons outcome more ih =>
    by_cases hi : outcome = .fail .interrupted
    · obtain ⟨used, hused⟩ := ih
      refine ⟨used, fun rounds => ?_⟩
      rw [receive, if_pos hi, hi]
      exact hused rounds
    · refine ⟨0, fun rounds => ?_⟩
      rw [receive, if_neg hi, List.flatMap_append, pieces_deliver outcome more, Nat.zero_add,
        List.flatMap_append, List.append_assoc]

namespace Peer

theorem Delivers.refl (peer : Peer) : peer.Delivers [] peer :=
  ⟨0, fun rounds => by rw [Nat.zero_add, List.nil_append]⟩

theorem Delivers.trans {first second third : Peer} {a b : List Bytes}
    (hab : first.Delivers a second) (hbc : second.Delivers b third) :
    first.Delivers (a ++ b) third := by
  obtain ⟨used, hused⟩ := hab
  obtain ⟨more, hmore⟩ := hbc
  refine ⟨used + more, fun rounds => ?_⟩
  rw [Nat.add_assoc, hused, hmore, List.append_assoc]

theorem Delivers.answers {peer later : Peer} {events : List Event}
    (h : peer.Delivers (repliesRead events) later) : peer.Answers events := by
  obtain ⟨used, hused⟩ := h
  refine ⟨used + 0, ?_⟩
  rw [hused 0]
  exact List.prefix_append _ _

/-- What is read later comes behind what was read before. -/
theorem Delivers.answers_append {peer later : Peer} {past events : List Event}
    (h : peer.Delivers (repliesRead past) later) (ha : later.Answers events) :
    peer.Answers (past ++ events) := by
  obtain ⟨used, hused⟩ := h
  obtain ⟨rounds, hrounds⟩ := ha
  refine ⟨used + rounds, ?_⟩
  rw [hused, repliesRead_append]
  exact (List.prefix_append_right_inj _).mpr hrounds

theorem delivers_of_setup (peer : Peer) {events : List Event}
    (h : ∀ event ∈ events, event.isSetup = true) :
    peer.Delivers (repliesRead events) peer := by
  rw [repliesRead_of_setup h]
  exact .refl peer

theorem Answers.append_setup {peer : Peer} {events last : List Event} (h : peer.Answers events)
    (hl : ∀ event ∈ last, event.isSetup = true) : peer.Answers (events ++ last) := by
  obtain ⟨rounds, hrounds⟩ := h
  refine ⟨rounds, ?_⟩
  rw [repliesRead_append, repliesRead_of_setup hl, List.append_nil]
  exact hrounds

theorem delivers_send (peer : Peer) (payload : Bytes) :
    peer.Delivers (repliesRead (peer.send payload).events) (peer.send payload).peer := by
  have hnone : repliesRead (peer.send payload).events = [] :=
    (sending_sendAll payload peer.sends).repliesRead
  rw [hnone]
  exact ⟨0, fun rounds => by rw [Nat.zero_add, List.nil_append]; rfl⟩

theorem delivers_read (peer : Peer) :
    peer.Delivers (repliesRead peer.read.events) peer.read.peer :=
  pieces_receive peer.lasting peer.reads

theorem delivers_roundTrip (peer : Peer) (command : Command) :
    peer.Delivers (repliesRead (peer.roundTrip command).events) (peer.roundTrip command).peer := by
  have hsend := peer.delivers_send command.encode
  cases hr : (peer.send command.encode).result with
  | error cause =>
    simp only [roundTrip, hr]
    exact hsend
  | ok done =>
    simp only [roundTrip, hr, repliesRead_append]
    exact hsend.trans (peer.send command.encode).peer.delivers_read

end Peer

/-- A peer that has been greeted goes on with what it delivers behind the answer to the greeting. -/
theorem delivers_greet {target : Target} {script : Script} {peer : Peer}
    (h : (target.greet script).1 = .ok peer) :
    script.peer.Delivers (repliesRead (target.greet script).2) peer := by
  unfold Target.greet at *
  split at h
  · rename_i hp
    rw [if_pos hp]
    cases h
    exact .refl script.peer
  · rename_i hp
    rw [if_neg hp, authenticate_events]
    have hpeer : peer = (script.peer.roundTrip target.authCommand).peer := by
      unfold Target.authenticate at h
      dsimp only at h
      split at h
      · cases h
      · split at h
        · cases h; rfl
        · cases h
    rw [hpeer]
    exact script.peer.delivers_roundTrip target.authCommand

theorem delivers_dial {target : Target} {script : Script} {peer : Peer}
    (h : (target.dial script).result = .ok peer) :
    script.peer.Delivers (repliesRead (target.dial script).events) peer := by
  have hdials := dials_dial target script
  generalize target.dial script = dialled at hdials h
  cases hdials with
  | connected hp hg log =>
    cases h
    have hgreet := delivers_greet (congrArg Prod.fst hg)
    rw [hg] at hgreet
    rw [repliesRead_append]
    exact (script.peer.delivers_of_setup (isSetup_of_prepares hp)).trans hgreet
  | _ => cases h

end RespLoad
