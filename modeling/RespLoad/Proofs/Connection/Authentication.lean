import Mathlib.Tactic.ByContra
import RespLoad.Proofs.Connection.Descriptors

/-!
# Authentication on one connection

If there is a password, the request that authenticates is the first that is offered on a connection, and
nothing else is offered unless all of it was accepted and the one read behind it brought a simple string
(`AuthenticatesFirst`, `Admitted`). Dialling gets a connection exactly then, and otherwise closes the
socket that it made. What the server makes of the credentials is not spoken of.
-/
namespace RespLoad

/-- A call that can stand before the reply to a request: no read, and no send that failed for good. -/
def Event.precedesReply : Event → Bool
  | .receive _ => false
  | .send _ (.fail errno) => errno == .interrupted
  | _ => true

/-- The offer is what is left of the frame. Nothing has been read yet, and no send has failed for
good. -/
structure Greets (frame : Bytes) (past : List Event) (rest : Bytes) : Prop where
  left : rest ≠ []
  whole : acceptedBytes past ++ rest = frame
  before : ∀ event ∈ past, event.precedesReply = true

/-- All of the frame was accepted, and the one read behind it, begun again while it was interrupted,
brought bytes with a plus sign in front. -/
def Admitted (frame : Bytes) (events : List Event) : Prop :=
  ∃ calls retries reply later,
    events = calls ++ (retries ++ .receive (.data reply) :: later) ∧
      acceptedBytes calls = frame ∧ (∀ event ∈ calls, event.precedesReply = true) ∧
      (∀ event ∈ retries, event = .receive (.fail .interrupted)) ∧ reply.head? = some 43

/-- The first offer is the whole frame, and each offer is one of the frame or comes after the client was
admitted. -/
structure AuthenticatesFirst (frame : Bytes) (events : List Event) : Prop where
  first : ∀ past rest outcome future, events = past ++ .send rest outcome :: future →
    (∀ payload result, Event.send payload result ∉ past) → rest = frame
  offers : ∀ past rest outcome future, events = past ++ .send rest outcome :: future →
    Greets frame past rest ∨ Admitted frame past

/-- The socket that was made, if one was, is closed by the last call and by no other. -/
def LeavesNoSocket (events : List Event) : Prop :=
  .socket none ∈ events → ∃ calls, events = calls ++ [.close] ∧ .close ∉ calls

theorem acceptedBytes_of_no_send {events : List Event}
    (h : ∀ payload result, Event.send payload result ∉ events) : acceptedBytes events = [] := by
  rw [acceptedBytes, List.flatMap_eq_nil_iff]
  intro event he
  cases event with
  | send payload result => exact absurd he (h payload result)
  | _ => rfl

section Frame

variable {frame : Bytes} {a b : List Event}

theorem Admitted.append (h : Admitted frame a) (b : List Event) : Admitted frame (a ++ b) := by
  obtain ⟨calls, retries, reply, later, rfl, hframe, hcalls, hretries, hplus⟩ := h
  refine ⟨calls, retries, reply, later ++ b, ?_, hframe, hcalls, hretries, hplus⟩
  rw [List.append_assoc, List.append_assoc, List.cons_append]

theorem precedesReply_of_setup (h : ∀ event ∈ a, event.isSetup = true) :
    ∀ event ∈ a, event.precedesReply = true := by
  intro event he
  have hs := h event he
  cases event <;> first | rfl | cases hs

theorem Admitted.after_setup (ha : ∀ event ∈ a, event.isSetup = true) (h : Admitted frame b) :
    Admitted frame (a ++ b) := by
  obtain ⟨calls, retries, reply, later, rfl, hframe, hcalls, hretries, hplus⟩ := h
  refine ⟨a ++ calls, retries, reply, later, ?_, ?_, ?_, hretries, hplus⟩
  · rw [List.append_assoc]
  · rw [acceptedBytes_append, acceptedBytes_of_setup ha, hframe, List.nil_append]
  · exact List.forall_mem_append.mpr ⟨precedesReply_of_setup ha, hcalls⟩

/-- The read that admitted the client is the first that brought something. -/
theorem Admitted.repliesRead (h : Admitted frame a) :
    ∃ reply more, repliesRead a = reply :: more ∧ reply.head? = some 43 := by
  obtain ⟨calls, retries, reply, later, rfl, _, hcalls, hretries, hplus⟩ := h
  refine ⟨reply, RespLoad.repliesRead later, ?_, hplus⟩
  have hc : RespLoad.repliesRead calls = [] := by
    rw [RespLoad.repliesRead, List.filterMap_eq_nil_iff]
    intro event he
    have hp := hcalls event he
    cases event <;> first | rfl | cases hp
  have hr : RespLoad.repliesRead retries = [] := by
    rw [RespLoad.repliesRead, List.filterMap_eq_nil_iff]
    intro event he
    rw [hretries event he]
    rfl
  rw [repliesRead_append, repliesRead_append, hc, hr]
  rfl

/-- If nothing was offered before and the frame is not empty, there was nothing to admit the client
for. -/
theorem AuthenticatesFirst.of_offers (hne : frame ≠ [])
    (h : ∀ past rest outcome future, a = past ++ .send rest outcome :: future →
      Greets frame past rest ∨ Admitted frame past) : AuthenticatesFirst frame a := by
  refine ⟨?_, h⟩
  intro past rest outcome future he hnone
  rcases h past rest outcome future he with hg | ⟨calls, _, _, _, rfl, hframe, _⟩
  · have hw := hg.whole
    rwa [acceptedBytes_of_no_send hnone, List.nil_append] at hw
  · have hc : acceptedBytes calls = [] := acceptedBytes_of_no_send fun payload result hm =>
      hnone payload result (List.mem_append_left _ hm)
    exact absurd (hframe.symm.trans hc) hne

theorem AuthenticatesFirst.upTo (h : AuthenticatesFirst frame a) (hb : b <+: a) :
    AuthenticatesFirst frame b := by
  obtain ⟨more, rfl⟩ := hb
  have hlonger : ∀ past rest outcome future, b = past ++ .send rest outcome :: future →
      b ++ more = past ++ .send rest outcome :: (future ++ more) := by
    rintro past rest outcome future rfl
    rw [List.append_assoc, List.cons_append]
  exact ⟨fun past rest outcome future he =>
      h.first past rest outcome _ (hlonger past rest outcome future he),
    fun past rest outcome future he =>
      h.offers past rest outcome _ (hlonger past rest outcome future he)⟩

theorem AuthenticatesFirst.of_setup (hne : frame ≠ []) (h : ∀ event ∈ a, event.isSetup = true) :
    AuthenticatesFirst frame a := by
  refine .of_offers hne fun past rest outcome future he => ?_
  have hs := h (.send rest outcome) (by rw [he]; simp)
  cases hs

theorem AuthenticatesFirst.after_setup (hne : frame ≠ []) (ha : ∀ event ∈ a, event.isSetup = true)
    (h : AuthenticatesFirst frame b) : AuthenticatesFirst frame (a ++ b) := by
  refine .of_offers hne fun past rest outcome future he => ?_
  rcases split_of_append he with ⟨between, hin⟩ | ⟨later, rfl, hin⟩
  · have hs := ha (.send rest outcome) (by rw [hin]; simp)
    cases hs
  · rcases h.offers later rest outcome future hin with hg | hd
    · refine Or.inl ⟨hg.left, ?_, ?_⟩
      · rw [acceptedBytes_append, acceptedBytes_of_setup ha, List.nil_append, hg.whole]
      · exact List.forall_mem_append.mpr ⟨precedesReply_of_setup ha, hg.before⟩
    · exact Or.inr (hd.after_setup ha)

theorem AuthenticatesFirst.append_setup (hne : frame ≠ []) (h : AuthenticatesFirst frame a)
    (hb : ∀ event ∈ b, event.isSetup = true) : AuthenticatesFirst frame (a ++ b) := by
  refine .of_offers hne fun past rest outcome future he => ?_
  rcases split_of_append he with ⟨between, hin⟩ | ⟨later, rfl, hin⟩
  · exact h.offers past rest outcome between hin
  · have hs := hb (.send rest outcome) (by rw [hin]; simp)
    cases hs

/-- Once the client is admitted it may offer anything. -/
theorem AuthenticatesFirst.append_admitted (hne : frame ≠ []) (h : AuthenticatesFirst frame a)
    (hd : Admitted frame a) (b : List Event) : AuthenticatesFirst frame (a ++ b) := by
  refine .of_offers hne fun past rest outcome future he => ?_
  rcases split_of_append he with ⟨between, hin⟩ | ⟨later, rfl, _⟩
  · exact h.offers past rest outcome between hin
  · exact Or.inr (hd.append later)

end Frame

/-- Only the last call of sending can be a failure for good, and not if all was accepted. -/
theorem Sending.precedesReply {payload : Bytes} {events : List Event} {finished : Bool}
    (h : Sending payload events finished) :
    (finished = true → ∀ event ∈ events, event.precedesReply = true) ∧
      ∀ past last future, events = past ++ last :: future →
        ∀ event ∈ past, event.precedesReply = true := by
  induction h with
  | nothing => exact ⟨fun _ => List.forall_mem_nil _, fun past last future he => by simp at he⟩
  | failed hne =>
    refine ⟨fun hf => Bool.noConfusion hf, fun past last future he => ?_⟩
    obtain ⟨rfl, _⟩ | ⟨_, _, hs⟩ := List.append_eq_cons_iff.mp he.symm
    · exact List.forall_mem_nil _
    · simp at hs
  | @offer payload left outcome events finished hne hi _ _ ih =>
    have hfirst : (Event.send payload outcome).precedesReply = true := by
      cases outcome with
      | accept count => rfl
      | fail errno => exact beq_iff_eq.mpr (hi errno rfl)
    refine ⟨fun hf => List.forall_mem_cons.mpr ⟨hfirst, ih.1 hf⟩, fun past last future he => ?_⟩
    obtain ⟨rfl, _⟩ | ⟨earlier, rfl, hs⟩ := List.append_eq_cons_iff.mp he.symm
    · exact List.forall_mem_nil _
    · exact List.forall_mem_cons.mpr ⟨hfirst, ih.2 earlier last future hs⟩

theorem Sending.greets {payload : Bytes} {events past future : List Event} {finished : Bool}
    {rest : Bytes} {outcome : SendOutcome} (h : Sending payload events finished)
    (he : events = past ++ .send rest outcome :: future) : Greets payload past rest :=
  ⟨(h.offered past rest outcome future he).1, (h.offered past rest outcome future he).2,
    h.precedesReply.2 past _ future he⟩

/-- A read that brings something brings it last. -/
theorem Reading.split {reads : List Event} {reply : Bytes} (h : Reading reads (some reply)) :
    ∃ retries, reads = retries ++ [.receive (.data reply)] ∧
      ∀ event ∈ retries, event = .receive (.fail .interrupted) := by
  generalize hr : some reply = brought at h
  induction h with
  | data bytes =>
    cases hr
    exact ⟨[], rfl, List.forall_mem_nil _⟩
  | failed errno => cases hr
  | again _ ih =>
    obtain ⟨retries, rfl, hretries⟩ := ih hr
    exact ⟨_ :: retries, rfl, List.forall_mem_cons.mpr ⟨rfl, hretries⟩⟩

namespace RoundTrip

variable {request : Command} {events : List Event}

theorem authenticatesFirst {reply : Option Bytes} (h : RoundTrip request events reply)
    (hne : request.encode ≠ []) : AuthenticatesFirst request.encode events := by
  refine .of_offers hne fun past rest outcome future he => Or.inl ?_
  cases h with
  | unsent hs => exact hs.greets he
  | @read sends reads _ hs hr =>
    rcases split_of_append he with ⟨between, hin⟩ | ⟨later, rfl, hin⟩
    · exact hs.greets hin
    · exact absurd (by rw [hin]; simp) (hr.not_send rest outcome)

theorem admitted {reply : Bytes} (h : RoundTrip request events (some reply))
    (hp : reply.head? = some 43) : Admitted request.encode events := by
  cases h with
  | @read sends reads _ hs hr =>
    obtain ⟨retries, rfl, hretries⟩ := hr.split
    exact ⟨sends, retries, reply, [], rfl, hs.accepted.2 rfl, hs.precedesReply.1 rfl, hretries, hp⟩

end RoundTrip

theorem ReplyKind.ofBytes_eq_simpleString_iff {bytes : Bytes} :
    ofBytes bytes = .simpleString ↔ bytes.head? = some 43 := by
  cases bytes with
  | nil => exact ⟨nofun, nofun⟩
  | cons b rest =>
    rw [List.head?_cons, Option.some.injEq]
    constructor
    · intro h
      by_contra hb
      simp only [ofBytes, if_neg hb] at h
      repeat' split at h
      all_goals cases h
    · rintro rfl
      rfl

namespace Target

variable {target : Target} {script : Script}

/-- Greeting with a password is one round trip, and it gets a connection exactly if a simple string came
back. -/
theorem roundTrip_of_greet (hp : target.password ≠ []) {result : Except OpenError Peer}
    {talk : List Event} (hg : target.greet script = (result, talk)) :
    ∃ reply, RoundTrip target.authCommand talk reply ∧
      ((∃ peer, result = .ok peer) ↔ ∃ bytes, reply = some bytes ∧ bytes.head? = some 43) := by
  have hn : ¬ target.password.isEmpty = true := fun he => hp (List.isEmpty_iff.mp he)
  rw [greet, if_neg hn] at hg
  obtain ⟨rfl, rfl⟩ : (target.authenticate script.peer).1 = result ∧
      (target.authenticate script.peer).2 = talk := ⟨congrArg Prod.fst hg, congrArg Prod.snd hg⟩
  refine ⟨_, authenticate_events target script.peer ▸ roundTrip_roundTrip _ _, ?_⟩
  unfold authenticate
  cases hr : (script.peer.roundTrip target.authCommand).result with
  | error cause =>
    simp only [hr]
    exact iff_of_false (fun ⟨_, h⟩ => by cases h) fun ⟨_, h, _⟩ => by cases h
  | ok bytes =>
    simp only [hr]
    split
    · rename_i hs
      exact iff_of_true ⟨_, rfl⟩ ⟨bytes, rfl, ReplyKind.ofBytes_eq_simpleString_iff.mp hs⟩
    · rename_i hs
      refine iff_of_false (fun ⟨_, h⟩ => by cases h) fun ⟨other, ho, hplus⟩ => hs ?_
      cases ho
      exact ReplyKind.ofBytes_eq_simpleString_iff.mpr hplus

theorem encode_authCommand_ne_nil (target : Target) : target.authCommand.encode ≠ [] :=
  List.cons_ne_nil _ _

/-- Dialling greets first, if there is a password. -/
theorem authenticatesFirst_dial (hp : target.password ≠ []) (script : Script) :
    AuthenticatesFirst target.authCommand.encode (target.dial script).events := by
  have hne := target.encode_authCommand_ne_nil
  have hdials := dials_dial target script
  generalize target.dial script = dialled at hdials
  cases hdials with
  | unresolved cause => exact .of_setup hne (List.forall_mem_nil _)
  | refused errno cause => exact .of_setup hne (List.forall_mem_singleton.mpr rfl)
  | unprepared hc cause =>
    exact (AuthenticatesFirst.of_setup hne (isSetup_of_prepares hc)).append_setup hne isSetup_close
  | rejected hc hg log =>
    obtain ⟨reply, ht, _⟩ := roundTrip_of_greet hp hg
    exact ((ht.authenticatesFirst hne).after_setup hne (isSetup_of_prepares hc)).append_setup hne
      isSetup_close
  | connected hc hg log =>
    obtain ⟨reply, ht, _⟩ := roundTrip_of_greet hp hg
    exact (ht.authenticatesFirst hne).after_setup hne (isSetup_of_prepares hc)

theorem not_admitted_of_setup {frame : Bytes} {events : List Event}
    (h : ∀ event ∈ events, event.isSetup = true) : ¬ Admitted frame events := by
  intro hd
  obtain ⟨reply, more, hr, _⟩ := hd.repliesRead
  rw [repliesRead_of_setup h] at hr
  cases hr

/-- Dialling gets a connection exactly if the client was admitted. -/
theorem admitted_dial_iff (hp : target.password ≠ []) (script : Script) :
    Admitted target.authCommand.encode (target.dial script).events ↔
      ∃ peer, (target.dial script).result = .ok peer := by
  have hdials := dials_dial target script
  generalize target.dial script = dialled at hdials
  cases hdials with
  | unresolved cause =>
    exact iff_of_false (not_admitted_of_setup (List.forall_mem_nil _)) fun ⟨_, h⟩ => by cases h
  | refused errno cause =>
    exact iff_of_false (not_admitted_of_setup (List.forall_mem_singleton.mpr rfl))
      fun ⟨_, h⟩ => by cases h
  | unprepared hc cause =>
    refine iff_of_false (not_admitted_of_setup ?_) fun ⟨_, h⟩ => by cases h
    exact List.forall_mem_append.mpr ⟨isSetup_of_prepares hc, isSetup_close⟩
  | rejected hc hg log =>
    obtain ⟨reply, ht, hreply⟩ := roundTrip_of_greet hp hg
    refine iff_of_false (fun hd => ?_) fun ⟨_, h⟩ => by cases h
    obtain ⟨bytes, more, hr, hplus⟩ := hd.repliesRead
    rw [repliesRead_append, repliesRead_append, repliesRead_of_setup (isSetup_of_prepares hc),
      ht.repliesRead, repliesRead_of_setup isSetup_close] at hr
    cases reply with
    | none => cases hr
    | some other =>
      cases hr
      obtain ⟨_, h⟩ := hreply.mpr ⟨_, rfl, hplus⟩
      cases h
  | connected hc hg log =>
    obtain ⟨reply, ht, hreply⟩ := roundTrip_of_greet hp hg
    obtain ⟨bytes, rfl, hplus⟩ := hreply.mp ⟨_, rfl⟩
    exact iff_of_true ((ht.admitted hplus).after_setup (isSetup_of_prepares hc)) ⟨_, rfl⟩

theorem leavesNoSocket_dropped {calls : List Event}
    (h : ∀ event ∈ calls, event.usesSocket = true) :
    LeavesNoSocket (.socket none :: calls ++ [.close]) := by
  refine fun _ => ⟨.socket none :: calls, rfl, fun hm => ?_⟩
  rcases List.mem_cons.mp hm with hs | hc
  · cases hs
  · have hu := h _ hc
    cases hu

/-- Dialling that got no connection leaves no socket behind. -/
theorem leavesNoSocket_dial {cause : OpenError} (h : (target.dial script).result = .error cause) :
    LeavesNoSocket (target.dial script).events := by
  have hdials := dials_dial target script
  generalize target.dial script = dialled at h hdials
  cases hdials with
  | unresolved cause => exact fun hm => by cases hm
  | refused errno cause => exact fun hm => by cases List.mem_singleton.mp hm
  | unprepared hc cause => exact leavesNoSocket_dropped (usesSocket_of_prepares hc)
  | @rejected calls talk _ hc hg log =>
    have htalk := usesSocket_greet target script
    rw [hg] at htalk
    exact leavesNoSocket_dropped (List.forall_mem_append.mpr ⟨usesSocket_of_prepares hc, htalk⟩)
  | connected hc hg log => cases h

end Target

end RespLoad
