import Mathlib.Algebra.GroupWithZero.Nat
import RespLoad.Connection.Pool
import RespLoad.Proofs.Connection.Interruptions

/-!
# Sending, offer by offer

The loop that sends a payload, looked at after every outcome. Each offer is what is left of the payload,
so nothing is lost or sent twice, and how far the loop has come is told by the numbers of bytes that the
outcomes grant (`SendsOnce`). This holds of all outcomes so far, whatever is still to come: calls that are
interrupted or accept nothing for ever leave the loop without a result. If everything is accepted from
some outcome on, the loop ends, and a connection object has sent what the loop has.
-/
namespace RespLoad

namespace SendOutcome

/-- How many bytes are accepted, if so many are offered. -/
def count : SendOutcome → Nat
  | .accept count => count
  | .fail _ => 0

/-- The outcome of offering these bytes. No more are accepted than were offered. -/
def on (offered : Bytes) : SendOutcome → SendOutcome
  | .accept count => .accept (min count offered.length)
  | .fail errno => .fail errno

/-- How many bytes are accepted before the first failure that is no interruption, if there are so
many. -/
def granted (outcomes : List SendOutcome) : Nat := ((outcomes.takeWhile goesOn).map count).sum

/-- The first outcome that is a failure other than an interruption. -/
def stop? (outcomes : List SendOutcome) : Option SendOutcome := (outcomes.dropWhile goesOn).head?

theorem granted_cons_of_goesOn {outcome : SendOutcome} (h : outcome.goesOn = true)
    (more : List SendOutcome) : granted (outcome :: more) = outcome.count + granted more := by
  rw [granted, List.takeWhile_cons_of_pos h, List.map_cons, List.sum_cons, granted]

theorem stop?_cons_of_goesOn {outcome : SendOutcome} (h : outcome.goesOn = true)
    (more : List SendOutcome) : stop? (outcome :: more) = stop? more := by
  rw [stop?, List.dropWhile_cons_of_pos h, stop?]

end SendOutcome

open SendOutcome (granted stop?)

theorem IoError.message_ofSend_eq_iff {errno : Errno} :
    (IoError.ofSend errno).message = utf8 "send timed out" ↔ errno = .wouldBlock := by
  cases errno with
  | other error =>
    refine iff_of_false (fun h => ?_) nofun
    have hother : Errno.other error ≠ .wouldBlock := nofun
    rw [IoError.ofSend, if_neg hother] at h
    -- The fifth byte of the one is a parenthesis, and that of the other a blank.
    have hfifth : (utf8 "send()" ++ (utf8 " failed: " ++ error.text))[4]? =
        (utf8 "send timed out")[4]? := congrArg (·[4]?) (List.append_assoc _ _ _ ▸ h)
    rw [List.getElem?_append_left (by decide)] at hfifth
    revert hfifth
    decide
  | _ => decide

/-- The loop that sends a payload, between two offers. -/
structure SendLoop where
  unsent : Bytes
  calls : List Event := []
  failure : Option IoError := none

namespace SendLoop

/-- The loop has ended once everything is accepted, or after a failure. -/
def isEnded (loop : SendLoop) : Bool := loop.unsent.isEmpty || loop.failure.isSome

/-- An offer of all that is left, with its outcome. -/
def offer (loop : SendLoop) (outcome : SendOutcome) : SendLoop :=
  { loop with calls := loop.calls ++ [.send loop.unsent (outcome.on loop.unsent)] }

/-- One more outcome. A loop that has ended makes no offer. -/
def turn (loop : SendLoop) (outcome : SendOutcome) : SendLoop :=
  if loop.isEnded then loop
  else match outcome with
    | .accept count => { loop.offer outcome with unsent := loop.unsent.drop count }
    | .fail errno =>
      if errno = .interrupted then loop.offer outcome
      else { loop.offer outcome with failure := some (IoError.ofSend errno) }

/-- The loop when these outcomes have come in. -/
def after (payload : Bytes) (outcomes : List SendOutcome) : SendLoop :=
  outcomes.foldl turn { unsent := payload }

/-- The result, once the loop has ended. -/
def result? (loop : SendLoop) : Option (Except IoError Unit) :=
  match loop.failure with
  | some cause => some (.error cause)
  | none => if loop.unsent.isEmpty then some (.ok ()) else none

end SendLoop

/-- Each of the calls offers what was not accepted before, of which there is some, and the next outcome is
its own. -/
def OffersRest (payload : Bytes) (outcomes : List SendOutcome) (calls : List Event) : Prop :=
  ∀ past call future, calls = past ++ call :: future → acceptedBytes past ≠ payload ∧
    ∃ outcome, outcomes[past.length]? = some outcome ∧
      call = .send (payload.drop (acceptedBytes past).length)
        (outcome.on (payload.drop (acceptedBytes past).length))

theorem OffersRest.mono {payload : Bytes} {outcomes : List SendOutcome} {calls : List Event}
    (h : OffersRest payload outcomes calls) (more : List SendOutcome) :
    OffersRest payload (outcomes ++ more) calls := by
  intro past call future he
  obtain ⟨hne, outcome, ho, hcall⟩ := h past call future he
  have hlt := (List.getElem?_eq_some_iff.mp ho).1
  exact ⟨hne, outcome, by rw [List.getElem?_append_left hlt, ho], hcall⟩

theorem OffersRest.eq_nil {payload : Bytes} {outcomes : List SendOutcome} {calls : List Event}
    (h : OffersRest payload outcomes calls) (hp : payload = []) : calls = [] := by
  cases calls with
  | nil => rfl
  | cons call future => exact absurd hp.symm (h [] call future rfl).1

/-- What sending has come to when these outcomes have come in: the calls that were made, and the result if
there is one. -/
structure SendsOnce (payload : Bytes) (outcomes : List SendOutcome) (calls : List Event)
    (result? : Option (Except IoError Unit)) : Prop where
  /-- The accepted slices in a row are a start of the payload, as long as the outcomes say. -/
  accepted : acceptedBytes calls = payload.take (granted outcomes)
  /-- Each call offers the rest of the payload that is not accepted, and none is made without a rest. -/
  offered : OffersRest payload outcomes calls
  /-- Nothing is sent for nothing. -/
  empty : payload = [] → calls = []
  succeeded : result? = some (.ok ()) ↔ payload.length ≤ granted outcomes
  /-- Success is that the whole payload was accepted. Otherwise it is a proper start of it. -/
  complete : result? = some (.ok ()) ↔ acceptedBytes calls = payload
  failed : ∀ cause, result? = some (.error cause) ↔
    granted outcomes < payload.length ∧
      ∃ errno, stop? outcomes = some (.fail errno) ∧ cause = IoError.ofSend errno
  timedOut : ∀ cause, result? = some (.error cause) →
    (cause.message = utf8 "send timed out" ↔ stop? outcomes = some (.fail .wouldBlock))

namespace SendLoop

/-- What every turn keeps: what was accepted and what is left make up the payload, each offer was of what
was left then, and while the loop goes on it has made an offer for each outcome. -/
structure Follows (payload : Bytes) (outcomes : List SendOutcome) (loop : SendLoop) : Prop where
  parts : acceptedBytes loop.calls ++ loop.unsent = payload
  offered : OffersRest payload outcomes loop.calls
  going : loop.isEnded = false → loop.calls.length = outcomes.length

theorem isEnded_eq_false_iff {loop : SendLoop} :
    loop.isEnded = false ↔ loop.unsent ≠ [] ∧ loop.failure = none := by
  simp [isEnded]

theorem turn_of_isEnded {loop : SendLoop} (h : loop.isEnded = true) (outcome : SendOutcome) :
    loop.turn outcome = loop := if_pos h

theorem foldl_turn_of_isEnded {loop : SendLoop} (h : loop.isEnded = true)
    (outcomes : List SendOutcome) : outcomes.foldl turn loop = loop := by
  induction outcomes with
  | nil => rfl
  | cons outcome more ih => rw [List.foldl_cons, turn_of_isEnded h, ih]

theorem turn_accept {loop : SendLoop} (h : loop.isEnded = false) (count : Nat) :
    loop.turn (.accept count) =
      { loop.offer (.accept count) with unsent := loop.unsent.drop count } := by
  rw [turn, h]
  rfl

theorem turn_interrupted {loop : SendLoop} (h : loop.isEnded = false) :
    loop.turn (.fail .interrupted) = loop.offer (.fail .interrupted) := by
  rw [turn, h]
  rfl

theorem turn_fail {loop : SendLoop} (h : loop.isEnded = false) {errno : Errno}
    (hi : errno ≠ .interrupted) :
    loop.turn (.fail errno) =
      { loop.offer (.fail errno) with failure := some (IoError.ofSend errno) } := by
  rw [turn, h]
  exact if_neg hi

/-- The next offer is of what is left, and the outcome that comes in is the one of its place. -/
theorem Follows.offer {payload : Bytes} {outcomes : List SendOutcome} {loop : SendLoop}
    (h : loop.Follows payload outcomes) (hgoing : loop.isEnded = false) (outcome : SendOutcome) :
    OffersRest payload (outcomes ++ [outcome]) (loop.offer outcome).calls := by
  intro past call future he
  -- Either the call was there before, or it is the new one and nothing is behind it.
  rcases split_of_append he with ⟨between, hin⟩ | ⟨later, rfl, hin⟩
  · exact h.offered.mono [outcome] past call between hin
  · obtain ⟨rfl, rfl, _⟩ : later = [] ∧ call = .send loop.unsent (outcome.on loop.unsent) ∧
        future = [] := by
      cases later with
      | nil => cases hin; exact ⟨rfl, rfl, rfl⟩
      | cons first later => simp at hin
    have hparts := h.parts
    rw [List.append_nil]
    constructor
    · intro hall
      rw [hall] at hparts
      exact (isEnded_eq_false_iff.mp hgoing).1 (List.self_eq_append_right.mp hparts.symm)
    · refine ⟨outcome, ?_, ?_⟩
      · rw [h.going hgoing, List.getElem?_concat_length]
      · rw [← hparts, List.drop_left]

theorem acceptedBytes_offer (loop : SendLoop) (outcome : SendOutcome) :
    acceptedBytes (loop.offer outcome).calls =
      acceptedBytes loop.calls ++ loop.unsent.take outcome.count := by
  rw [offer, acceptedBytes_append]
  cases outcome with
  | accept count =>
    simp only [acceptedBytes, List.flatMap_cons, List.flatMap_nil, SendOutcome.on,
      Event.accepted, List.append_nil, ← List.take_eq_take_min, SendOutcome.count]
  | fail errno => rfl

theorem Follows.turn {payload : Bytes} {outcomes : List SendOutcome} {loop : SendLoop}
    (h : loop.Follows payload outcomes) (outcome : SendOutcome) :
    (loop.turn outcome).Follows payload (outcomes ++ [outcome]) := by
  by_cases hended : loop.isEnded = true
  · rw [turn_of_isEnded hended]
    exact ⟨h.parts, h.offered.mono _, fun hgoing => by rw [hended] at hgoing; cases hgoing⟩
  · have hgoing : loop.isEnded = false := Bool.not_eq_true _ ▸ hended
    have hoffered := h.offer hgoing outcome
    have haccepted := acceptedBytes_offer loop outcome
    have hlength : (loop.offer outcome).calls.length = (outcomes ++ [outcome]).length := by
      simp only [SendLoop.offer, List.length_append, h.going hgoing, List.length_singleton]
    cases outcome with
    | accept count =>
      rw [turn_accept hgoing]
      refine ⟨?_, hoffered, fun _ => hlength⟩
      rw [haccepted, List.append_assoc, SendOutcome.count, List.take_append_drop]
      exact h.parts
    | fail errno =>
      have hparts : acceptedBytes (loop.offer (.fail errno)).calls ++ loop.unsent = payload := by
        rw [haccepted, SendOutcome.count, List.take_zero, List.append_nil]
        exact h.parts
      by_cases hi : errno = .interrupted
      · subst hi
        rw [turn_interrupted hgoing]
        exact ⟨hparts, hoffered, fun _ => hlength⟩
      · rw [turn_fail hgoing hi]
        exact ⟨hparts, hoffered, fun _ => hlength⟩

theorem follows_foldl {payload : Bytes} {past : List SendOutcome} {loop : SendLoop}
    (h : loop.Follows payload past) (outcomes : List SendOutcome) :
    (outcomes.foldl SendLoop.turn loop).Follows payload (past ++ outcomes) := by
  induction outcomes generalizing past loop with
  | nil => rwa [List.append_nil]
  | cons outcome more ih =>
    have hnext := ih (h.turn outcome)
    rwa [List.append_assoc] at hnext

theorem follows_after (payload : Bytes) (outcomes : List SendOutcome) :
    (after payload outcomes).Follows payload outcomes := by
  have hstart : Follows payload [] { unsent := payload } :=
    ⟨rfl, fun past call future he => by simp at he, fun _ => rfl⟩
  exact follows_foldl hstart outcomes

/-- The numbers alone tell where a loop gets to. Zero bytes and interruptions leave it where it is. -/
theorem foldl_turn (outcomes : List SendOutcome) (loop : SendLoop) (hf : loop.failure = none) :
    (outcomes.foldl turn loop).unsent = loop.unsent.drop (granted outcomes) ∧
      ∀ cause, (outcomes.foldl turn loop).failure = some cause ↔
        granted outcomes < loop.unsent.length ∧
          ∃ errno, stop? outcomes = some (.fail errno) ∧ cause = IoError.ofSend errno := by
  induction outcomes generalizing loop with
  | nil => simp [granted, stop?, hf]
  | cons outcome more ih =>
    -- With nothing left the outcomes ahead grant bytes and fail in vain.
    by_cases hne : loop.unsent = []
    · rw [foldl_turn_of_isEnded (by simp [isEnded, hne])]
      simp [hne, hf]
    · have hgoing := isEnded_eq_false_iff.mpr ⟨hne, hf⟩
      rw [List.foldl_cons]
      cases outcome with
      | accept count =>
        have hgoes : (SendOutcome.accept count).goesOn = true := rfl
        obtain ⟨hunsent, hfailure⟩ :=
          ih { loop.offer (.accept count) with unsent := loop.unsent.drop count } hf
        rw [turn_accept hgoing, hunsent, SendOutcome.granted_cons_of_goesOn hgoes,
          SendOutcome.stop?_cons_of_goesOn hgoes]
        refine ⟨List.drop_drop, fun cause => (hfailure cause).trans (and_congr_left' ?_)⟩
        rw [List.length_drop, SendOutcome.count]
        omega
      | fail errno =>
        by_cases hi : errno = .interrupted
        · have hgoes : (SendOutcome.fail errno).goesOn = true := decide_eq_true hi
          rw [SendOutcome.granted_cons_of_goesOn hgoes, SendOutcome.stop?_cons_of_goesOn hgoes,
            SendOutcome.count, Nat.zero_add, hi, turn_interrupted hgoing]
          exact ih _ hf
        · have hstop : ¬ (SendOutcome.fail errno).goesOn = true := by
            simpa [SendOutcome.goesOn] using hi
          rw [turn_fail hgoing hi, foldl_turn_of_isEnded (by simp [isEnded])]
          simp [granted, stop?, hstop, List.length_pos_iff.mpr hne, eq_comm, offer]

theorem result?_eq_ok_iff {loop : SendLoop} :
    loop.result? = some (.ok ()) ↔ loop.failure = none ∧ loop.unsent = [] := by
  unfold result?
  cases loop.failure with
  | some cause => simp
  | none => simp

theorem result?_eq_error_iff {loop : SendLoop} {cause : IoError} :
    loop.result? = some (.error cause) ↔ loop.failure = some cause := by
  unfold result?
  cases loop.failure with
  | some other => simp
  | none => simp

theorem sendsOnce_after (payload : Bytes) (outcomes : List SendOutcome) :
    SendsOnce payload outcomes (after payload outcomes).calls (after payload outcomes).result? := by
  have hfollows := follows_after payload outcomes
  obtain ⟨hunsent, hfailure⟩ : (after payload outcomes).unsent = payload.drop (granted outcomes) ∧ _ :=
    foldl_turn outcomes { unsent := payload } rfl
  have haccepted : acceptedBytes (after payload outcomes).calls =
      payload.take (granted outcomes) := by
    have hparts := hfollows.parts
    rw [hunsent] at hparts
    exact List.append_cancel_right (hparts.trans (List.take_append_drop _ payload).symm)
  have hok : (after payload outcomes).result? = some (.ok ()) ↔
      payload.length ≤ granted outcomes := by
    rw [result?_eq_ok_iff, hunsent, List.drop_eq_nil_iff, and_iff_right_iff_imp]
    intro hle
    refine Option.eq_none_iff_forall_ne_some.mpr fun cause hc => ?_
    exact absurd ((hfailure cause).mp hc).1 (Nat.not_lt.mpr hle)
  have herror : ∀ cause, (after payload outcomes).result? = some (.error cause) ↔ _ :=
    fun cause => result?_eq_error_iff.trans (hfailure cause)
  refine ⟨haccepted, hfollows.offered, hfollows.offered.eq_nil, hok, ?_, herror, ?_⟩
  · rw [hok, haccepted, ← List.drop_eq_nil_iff]
    constructor
    · intro hdrop
      rw [← List.append_nil (payload.take _), ← hdrop, List.take_append_drop]
    · intro htake
      rw [← htake, List.drop_take, Nat.sub_self, List.take_zero]
  · intro cause hc
    obtain ⟨_, errno, hstop, rfl⟩ := (herror cause).mp hc
    rw [IoError.message_ofSend_eq_iff, hstop]
    simp

/-- The loop has ended as sending does, after the calls in `past`. -/
def ComesTo (loop : SendLoop) (past : List Event) (sent : Sent) : Prop :=
  loop.result? = some sent.result ∧ loop.calls = past ++ sent.events

theorem ComesTo.after {loop : SendLoop} {past : List Event} {event : Event} {sent : Sent}
    (h : loop.ComesTo (past ++ [event]) sent) : loop.ComesTo past (sent.after event) :=
  ⟨h.1, h.2.trans (List.append_assoc _ _ _)⟩

theorem comesTo_of_unsent_nil {loop : SendLoop} (hf : loop.failure = none) (hu : loop.unsent = [])
    (outcomes script : List SendOutcome) :
    (outcomes.foldl turn loop).ComesTo loop.calls (sendAll loop.unsent script) := by
  rw [foldl_turn_of_isEnded (by simp [isEnded, hu]), hu, sendAll_nil]
  exact ⟨result?_eq_ok_iff.mpr ⟨hf, hu⟩, (List.append_nil _).symm⟩

/-- Sending does as the loop does, if everything is accepted behind the outcomes at hand. -/
theorem foldl_turn_comesTo (script : List SendOutcome) (loop : SendLoop)
    (hf : loop.failure = none) {enough : Nat} (hle : loop.unsent.length ≤ enough) :
    ((script ++ [SendOutcome.accept enough]).foldl turn loop).ComesTo loop.calls
      (sendAll loop.unsent script) := by
  -- The recursion of sending and the turns of the loop use up one outcome each.
  induction script generalizing loop with
  | nil =>
    by_cases hne : loop.unsent = []
    · exact comesTo_of_unsent_nil hf hne _ _
    · have hgoing := isEnded_eq_false_iff.mpr ⟨hne, hf⟩
      have hsent : sendAll loop.unsent [] =
          ⟨.ok (), [.send loop.unsent (.accept loop.unsent.length)], []⟩ := by
        simp [sendAll, hne]
      rw [List.nil_append, List.foldl_cons, List.foldl_nil, turn_accept hgoing, hsent,
        List.drop_eq_nil_of_le hle]
      refine ⟨result?_eq_ok_iff.mpr ⟨hf, rfl⟩, ?_⟩
      simp only [offer, SendOutcome.on, Nat.min_eq_right hle]
  | cons outcome more ih =>
    by_cases hne : loop.unsent = []
    · exact comesTo_of_unsent_nil hf hne _ _
    · have hgoing := isEnded_eq_false_iff.mpr ⟨hne, hf⟩
      rw [List.cons_append, List.foldl_cons]
      cases outcome with
      | accept count =>
        have hsent : sendAll loop.unsent (.accept count :: more) =
            (sendAll (loop.unsent.drop count) more).after
              (.send loop.unsent (.accept (min count loop.unsent.length))) := by
          simp [sendAll, hne]
        have hshorter : (loop.unsent.drop count).length ≤ enough := by
          rw [List.length_drop]
          omega
        rw [turn_accept hgoing, hsent]
        exact (ih { loop.offer (.accept count) with unsent := loop.unsent.drop count } hf
          hshorter).after
      | fail errno =>
        by_cases hi : errno = .interrupted
        · subst hi
          have hsent : sendAll loop.unsent (.fail .interrupted :: more) =
              (sendAll loop.unsent more).after (.send loop.unsent (.fail .interrupted)) := by
            simp [sendAll, hne]
          rw [turn_interrupted hgoing, hsent]
          exact (ih (loop.offer (.fail .interrupted)) hf hle).after
        · rw [turn_fail hgoing hi, sendAll_failed hne hi,
            foldl_turn_of_isEnded (by simp [isEnded])]
          exact ⟨rfl, rfl⟩

theorem after_comesTo (payload : Bytes) (script : List SendOutcome) :
    (after payload (script ++ [SendOutcome.accept payload.length])).ComesTo []
      (sendAll payload script) :=
  foldl_turn_comesTo script { unsent := payload } rfl (Nat.le_refl _)

end SendLoop

/-- The answer of a connection object to sending. -/
def PoolAnswer.ofSend : Except IoError Unit → PoolAnswer
  | .ok () => .done
  | .error cause => .failed cause

theorem Pool.act_send {size : Nat} (allocator : Allocator) {pool : Pool size} {object : Fin size}
    {held : Held} (h : getElem pool.objects object object.isLt = some held) (payload : Bytes) :
    let sent := sendAll payload held.peer.sends
    (pool.act allocator (.send object payload)).1 = .ofSend sent.result ∧
      (pool.act allocator (.send object payload)).2.calls =
        pool.calls ++ sent.events.map (⟨held.connection, held.descriptor, ·⟩) := by
  simp only [act, talk, h, Peer.send]
  cases (sendAll payload held.peer.sends).result with
  | ok done => exact ⟨rfl, rfl⟩
  | error cause => exact ⟨rfl, rfl⟩

/-- Sending loses and duplicates nothing, whatever the outcomes are that have come in. An open connection
object sends as the loop does, which has ended by the time that all of an offer is accepted. -/
theorem Pool.sends_each_byte_once (payload : Bytes) :
    (∀ outcomes, SendsOnce payload outcomes (SendLoop.after payload outcomes).calls
      (SendLoop.after payload outcomes).result?) ∧
    ∀ {size : Nat} (allocator : Allocator) (pool : Pool size) (object : Fin size) (held : Held),
      getElem pool.objects object object.isLt = some held →
        let loop := SendLoop.after payload (held.peer.sends ++ [.accept payload.length])
        let sent := pool.act allocator (.send object payload)
        ∃ result, loop.result? = some result ∧ sent.1 = .ofSend result ∧
          sent.2.calls = pool.calls ++ loop.calls.map (⟨held.connection, held.descriptor, ·⟩) := by
  refine ⟨SendLoop.sendsOnce_after payload, fun allocator pool object held h => ?_⟩
  obtain ⟨hresult, hcalls⟩ := SendLoop.after_comesTo payload held.peer.sends
  obtain ⟨hanswer, hsent⟩ := Pool.act_send allocator h payload
  refine ⟨_, hresult, hanswer, ?_⟩
  rw [hsent, hcalls, List.nil_append]

/-- Five of six bytes go out in pieces, between an interruption and an offer of which nothing is taken, and
then the time is up. -/
theorem Pool.sends_each_byte_once_timed_out :
    let payload := utf8 "abcdef"
    let outcomes := [.accept 2, .fail .interrupted, .accept 0, .accept 3, .fail .wouldBlock]
    let held : Held := ⟨3, 0, { sends := outcomes }⟩
    let pool : Pool 1 := { objects := #v[some held], scripts := [] }
    pool.objects[0] = some held ∧
      (pool.act Allocator.above (.send 0 payload)).1 = .failed .sendTimedOut ∧
      acceptedBytes (SendLoop.after payload outcomes).calls = utf8 "abcde" := by
  intro payload outcomes held pool
  obtain ⟨hloop, hpool⟩ := Pool.sends_each_byte_once payload
  obtain ⟨result, hresult, hanswer, _⟩ := hpool Allocator.above pool 0 held rfl
  obtain rfl : Except.error .sendTimedOut = result := Option.some.inj hresult
  exact ⟨rfl, hanswer, (hloop outcomes).accepted⟩

end RespLoad
