import RespLoad.Proofs.Connection.Dial
import RespLoad.Connection.Pool

/-!
# Descriptors in use

The system's side of a sequence of socket calls: which descriptors are open after it, where a call is
out of place that needs an open descriptor and does not have one. Dialling, sending and reading are
never out of place, whatever they come to.
-/
namespace RespLoad

namespace Event

/-- A call that needs an open socket and leaves it open. -/
def usesSocket : Event → Bool
  | .socket _ | .close => false
  | _ => true

/-- A call that opens or closes a descriptor. -/
def changesSocket : Event → Bool
  | .socket none | .close => true
  | _ => false

end Event

namespace Descriptors

/-- The open descriptors after a call. A new descriptor must not be open yet, and any other call needs
a descriptor that is. -/
def afterCall? (opened : List Nat) (call : SocketCall) : Option (List Nat) :=
  match call.event with
  | .socket (some _) => some opened
  | .socket none => if call.descriptor ∈ opened then none else some (call.descriptor :: opened)
  | .close => if call.descriptor ∈ opened then some (opened.erase call.descriptor) else none
  | _ => if call.descriptor ∈ opened then some opened else none

/-- The open descriptors after calls in order, unless one of them is out of place. -/
def after? (opened : List Nat) (calls : List SocketCall) : Option (List Nat) :=
  calls.foldlM afterCall? opened

/-- The calls that one connection makes on its descriptor. -/
def on (connection descriptor : Nat) (events : List Event) : List SocketCall :=
  events.map (⟨connection, descriptor, ·⟩)

/-- How a descriptor was opened and closed, in order. -/
def lifetimes (descriptor : Nat) (calls : List SocketCall) : List Event :=
  (calls.filter fun call => call.descriptor == descriptor && call.event.changesSocket).map
    SocketCall.event

theorem after?_append (opened : List Nat) (a b : List SocketCall) :
    after? opened (a ++ b) = (after? opened a).bind (after? · b) := List.foldlM_append

theorem after?_append_of_some {opened between : List Nat} {a : List SocketCall}
    (h : after? opened a = some between) (b : List SocketCall) :
    after? opened (a ++ b) = after? between b := by
  rw [after?_append, h, Option.bind_some]

theorem after?_cons (opened : List Nat) (call : SocketCall) (more : List SocketCall) :
    after? opened (call :: more) = (afterCall? opened call).bind (after? · more) :=
  List.foldlM_cons

/-- What a call that is in place does to the open descriptors. -/
inductive Effect (opened : List Nat) (call : SocketCall) : List Nat → Prop
  | opens (he : call.event = .socket none) (hd : call.descriptor ∉ opened) :
      Effect opened call (call.descriptor :: opened)
  | closes (he : call.event = .close) (hd : call.descriptor ∈ opened) :
      Effect opened call (opened.erase call.descriptor)
  | stays (he : call.event.changesSocket = false)
      (hd : call.event.usesSocket = true → call.descriptor ∈ opened) : Effect opened call opened

theorem effect_of_afterCall? {opened later : List Nat} {call : SocketCall}
    (h : afterCall? opened call = some later) : Effect opened call later := by
  obtain ⟨connection, descriptor, event⟩ := call
  cases event with
  | socket failure =>
    cases failure with
    | some errno => cases h; exact .stays rfl Bool.noConfusion
    | none =>
      obtain ⟨hd, hl⟩ := Option.ite_none_left_eq_some.mp h
      cases hl
      exact .opens rfl hd
  | close =>
    obtain ⟨hd, hl⟩ := Option.ite_none_right_eq_some.mp h
    cases hl
    exact .closes rfl hd
  | _ =>
    obtain ⟨hd, hl⟩ := Option.ite_none_right_eq_some.mp h
    cases hl
    exact .stays rfl fun _ => hd

/-- Every call but the one that makes a socket is made on a descriptor that is open then. -/
theorem Effect.mem {opened later : List Nat} {call : SocketCall} (h : Effect opened call later)
    (he : ∀ failure, call.event ≠ .socket failure) : call.descriptor ∈ opened := by
  cases h with
  | opens hs hd => exact absurd hs (he none)
  | closes hs hd => exact hd
  | stays hs hd =>
    apply hd
    obtain ⟨connection, descriptor, event⟩ := call
    cases event with
    | socket failure => exact absurd rfl (he failure)
    | close => cases hs
    | _ => rfl

theorem Effect.nodup {opened later : List Nat} {call : SocketCall} (h : Effect opened call later)
    (hn : opened.Nodup) : later.Nodup := by
  cases h with
  | opens he hd => exact List.nodup_cons.mpr ⟨hd, hn⟩
  | closes he hd => exact hn.erase _
  | stays he hd => exact hn

theorem nodup_of_after? {opened later : List Nat} {calls : List SocketCall}
    (h : after? opened calls = some later) (hn : opened.Nodup) : later.Nodup := by
  induction calls generalizing opened with
  | nil => cases h; exact hn
  | cons call more ih =>
    rw [after?_cons] at h
    obtain ⟨between, hc, hm⟩ := Option.bind_eq_some_iff.mp h
    exact ih hm ((effect_of_afterCall? hc).nodup hn)

/-- Calls that are in place are so one by one. -/
theorem effect_of_split {past future : List SocketCall} {call : SocketCall}
    {opened later : List Nat} (h : after? opened (past ++ call :: future) = some later) :
    ∃ before between, after? opened past = some before ∧ Effect before call between := by
  rw [after?_append] at h
  obtain ⟨before, hb, hrest⟩ := Option.bind_eq_some_iff.mp h
  rw [after?_cons] at hrest
  obtain ⟨between, hc, _⟩ := Option.bind_eq_some_iff.mp hrest
  exact ⟨before, between, hb, effect_of_afterCall? hc⟩

/-- Closing twice is out of place, unless the descriptor was opened again in between. -/
example : after? [] (on 0 3 [.socket none, .close, .close]) = none ∧
    after? [] (on 0 3 [.socket none, .close] ++ on 1 3 [.socket none, .close]) = some [] := by
  decide

/-- The event that opened a descriptor, if it is open. -/
def openings (opened : List Nat) (descriptor : Nat) : List Event :=
  if descriptor ∈ opened then [.socket none] else []

theorem lifetimes_cons (descriptor : Nat) (call : SocketCall) (more : List SocketCall) :
    lifetimes descriptor (call :: more) =
      lifetimes descriptor [call] ++ lifetimes descriptor more := by
  rw [← List.singleton_append, lifetimes, List.filter_append, List.map_append]
  rfl

theorem lifetimes_singleton (descriptor : Nat) (call : SocketCall) :
    lifetimes descriptor [call] =
      if call.descriptor = descriptor ∧ call.event.changesSocket = true then [call.event]
      else [] := by
  simp only [lifetimes, List.filter_cons, List.filter_nil, Bool.and_eq_true, beq_iff_eq]
  split <;> rfl

/-- One call takes a descriptor from closed to open, from open to closed, or leaves it. -/
theorem Effect.lifetimes {opened later : List Nat} {call : SocketCall}
    (h : Effect opened call later) (hn : opened.Nodup) (descriptor : Nat) :
    openings opened descriptor ++ lifetimes descriptor [call] = openings later descriptor ∨
      (openings opened descriptor ++ lifetimes descriptor [call] = [.socket none, .close] ∧
        openings later descriptor = []) := by
  rw [lifetimes_singleton]
  cases h with
  | opens he hd =>
    left
    by_cases hsame : call.descriptor = descriptor
    · subst hsame
      simp [openings, he, hd, Event.changesSocket]
    · have hne : descriptor ≠ call.descriptor := fun heq => hsame heq.symm
      simp [openings, hsame, hne]
  | closes he hd =>
    by_cases hsame : call.descriptor = descriptor
    · subst hsame
      right
      simp [openings, he, hd, hn.mem_erase_iff, Event.changesSocket]
    · have hne : descriptor ≠ call.descriptor := fun heq => hsame heq.symm
      left
      simp [openings, hsame, List.mem_erase_of_ne hne]
  | stays he hd =>
    left
    simp [he]

/-- A descriptor is opened and closed by turns, and it is open now if it was opened last. -/
theorem lifetimes_alternate {opened later : List Nat} {calls : List SocketCall}
    (h : after? opened calls = some later) (hn : opened.Nodup) (descriptor : Nat) :
    ∃ n, openings opened descriptor ++ lifetimes descriptor calls =
      (List.replicate n [Event.socket none, Event.close]).flatten ++ openings later descriptor := by
  induction calls generalizing opened with
  | nil =>
    cases h
    exact ⟨0, List.append_nil _⟩
  | cons call more ih =>
    rw [after?_cons] at h
    obtain ⟨between, hc, hm⟩ := Option.bind_eq_some_iff.mp h
    have he := effect_of_afterCall? hc
    obtain ⟨n, hcycles⟩ := ih hm (he.nodup hn)
    rw [lifetimes_cons, ← List.append_assoc]
    rcases he.lifetimes hn descriptor with hstay | ⟨hdone, hshut⟩
    · exact ⟨n, by rw [hstay, hcycles]⟩
    · rw [hshut, List.nil_append] at hcycles
      refine ⟨n + 1, ?_⟩
      rw [hdone, hcycles, List.replicate_succ, List.flatten_cons, List.append_assoc]

theorem on_cons (connection descriptor : Nat) (event : Event) (more : List Event) :
    on connection descriptor (event :: more) =
      ⟨connection, descriptor, event⟩ :: on connection descriptor more := rfl

theorem on_append (connection descriptor : Nat) (a b : List Event) :
    on connection descriptor (a ++ b) =
      on connection descriptor a ++ on connection descriptor b := List.map_append

theorem afterCall?_of_uses {opened : List Nat} {descriptor : Nat} {event : Event}
    (hd : descriptor ∈ opened) (hu : event.usesSocket = true) (connection : Nat) :
    afterCall? opened ⟨connection, descriptor, event⟩ = some opened := by
  cases event with
  | socket failure => cases hu
  | close => cases hu
  | _ => exact if_pos hd

theorem after?_of_uses {opened : List Nat} {descriptor : Nat} {events : List Event}
    (hd : descriptor ∈ opened) (hu : ∀ event ∈ events, event.usesSocket = true)
    (connection : Nat) :
    after? opened (on connection descriptor events) = some opened := by
  induction events with
  | nil => rfl
  | cons event more ih =>
    have hc := afterCall?_of_uses hd (hu event List.mem_cons_self) connection
    rw [on_cons, after?_cons, hc, Option.bind_some]
    exact ih fun other ho => hu other (List.mem_cons_of_mem event ho)

theorem after?_close {opened : List Nat} {descriptor : Nat} (hd : descriptor ∈ opened)
    (connection : Nat) :
    after? opened (on connection descriptor [.close]) = some (opened.erase descriptor) := by
  have hc : afterCall? opened ⟨connection, descriptor, .close⟩ =
      some (opened.erase descriptor) := if_pos hd
  rw [on_cons, after?_cons, hc]
  rfl

end Descriptors

theorem Sending.usesSocket {payload : Bytes} {events : List Event} {finished : Bool}
    (h : Sending payload events finished) : ∀ event ∈ events, event.usesSocket = true := by
  induction h with
  | nothing => exact List.forall_mem_nil _
  | failed hne => exact List.forall_mem_singleton.mpr rfl
  | offer hne hi ht hs ih => exact List.forall_mem_cons.mpr ⟨rfl, ih⟩

theorem Reading.usesSocket {events : List Event} {reply : Option Bytes}
    (h : Reading events reply) : ∀ event ∈ events, event.usesSocket = true := by
  induction h with
  | data bytes => exact List.forall_mem_singleton.mpr rfl
  | failed errno => exact List.forall_mem_singleton.mpr rfl
  | again hr ih => exact List.forall_mem_cons.mpr ⟨rfl, ih⟩

theorem RoundTrip.usesSocket {request : Command} {events : List Event} {reply : Option Bytes}
    (h : RoundTrip request events reply) : ∀ event ∈ events, event.usesSocket = true := by
  cases h with
  | unsent hs => exact hs.usesSocket
  | read hs hr => exact List.forall_mem_append.mpr ⟨hs.usesSocket, hr.usesSocket⟩

theorem usesSocket_greet (target : Target) (script : Script) :
    ∀ event ∈ (target.greet script).2, event.usesSocket = true := by
  unfold Target.greet
  split
  · exact List.forall_mem_nil _
  · rw [authenticate_events]
    exact (roundTrip_roundTrip script.peer target.authCommand).usesSocket

theorem usesSocket_of_prepares {calls : List Event}
    (h : ∀ event ∈ calls, event.prepares = true) :
    ∀ event ∈ calls, event.usesSocket = true := by
  intro event he
  have hp := h event he
  cases event <;> first | rfl | cases hp

namespace Descriptors

section Dialling

variable {opened : List Nat} {descriptor : Nat}

/-- Calls on a new socket leave it open. -/
theorem after?_kept {calls : List Event} (hd : descriptor ∉ opened)
    (hu : ∀ event ∈ calls, event.usesSocket = true) (connection : Nat) :
    after? opened (on connection descriptor (.socket none :: calls)) =
      some (descriptor :: opened) := by
  have hopen : afterCall? opened ⟨connection, descriptor, .socket none⟩ =
      some (descriptor :: opened) := if_neg hd
  rw [on_cons, after?_cons, hopen, Option.bind_some]
  exact after?_of_uses List.mem_cons_self hu connection

/-- A new socket that is closed behind some calls leaves nothing open. -/
theorem after?_dropped {calls : List Event} (hd : descriptor ∉ opened)
    (hu : ∀ event ∈ calls, event.usesSocket = true) (connection : Nat) :
    after? opened (on connection descriptor (.socket none :: calls ++ [.close])) =
      some opened := by
  have hmem : descriptor ∈ descriptor :: opened := List.mem_cons_self
  have hclose := after?_close hmem connection
  rw [List.erase_cons_head] at hclose
  rw [on_append, after?_append_of_some (after?_kept hd hu connection)]
  exact hclose

/-- Dialling on a descriptor that is not open leaves it open if the connection is made, and else leaves
what was open. -/
theorem after?_dial (hd : descriptor ∉ opened) (connection : Nat) (target : Target)
    (script : Script) :
    after? opened (on connection descriptor (target.dial script).events) =
      some (if (target.dial script).result.toBool then descriptor :: opened else opened) := by
  have htalk := usesSocket_greet target script
  have hdials := dials_dial target script
  generalize target.dial script = dialled at hdials
  cases hdials with
  | unresolved cause => rfl
  | refused errno cause => rfl
  | unprepared hp cause => exact after?_dropped hd (usesSocket_of_prepares hp) connection
  | rejected hp hg log =>
    rw [hg] at htalk
    exact after?_dropped hd
      (List.forall_mem_append.mpr ⟨usesSocket_of_prepares hp, htalk⟩) connection
  | connected hp hg log =>
    rw [hg] at htalk
    exact after?_kept hd
      (List.forall_mem_append.mpr ⟨usesSocket_of_prepares hp, htalk⟩) connection

end Dialling

end Descriptors

end RespLoad
