import Mathlib.Data.List.Forall2
import RespLoad.Proofs.Connection.Dial

/-!
# Credentials on one connection

Two targets that differ in user and password only, and not in the lengths of these. Against the same
script they dial with the same outcome and the same entries in the log, and make the same calls, in which
nothing but the rests of their greetings differs. The greetings differ in the credentials only.
-/
namespace RespLoad

/-- The two calls are the same, or they offer the rests of two payloads from the same place on, with the
same outcome. -/
inductive SameCallBut (p q : Bytes) : Event → Event → Prop
  | same (event : Event) : SameCallBut p q event event
  | sent (place : Nat) (outcome : SendOutcome) :
      SameCallBut p q (.send (p.drop place) outcome) (.send (q.drop place) outcome)

/-- The calls are the same one by one, the rests of the two payloads apart. -/
abbrev SameCallsBut (p q : Bytes) (a b : List Event) : Prop := List.Forall₂ (SameCallBut p q) a b

theorem SameCallsBut.refl (p q : Bytes) (events : List Event) : SameCallsBut p q events events :=
  List.forall₂_same.mpr fun event _ => .same event

theorem isEmpty_congr {a b : Bytes} (h : a.length = b.length) : a.isEmpty = b.isEmpty := by
  rw [Bool.eq_iff_iff, List.isEmpty_iff_length_eq_zero, List.isEmpty_iff_length_eq_zero, h]

theorem length_drop_congr {a b : Bytes} (h : a.length = b.length) (place : Nat) :
    (a.drop place).length = (b.drop place).length := by
  rw [List.length_drop, List.length_drop, h]

/-- Two stretches came to the same. -/
structure Stretch.SameBut {α : Type} (p q : Bytes) (a b : Stretch α) : Prop where
  result : a.result = b.result
  peer : a.peer = b.peer
  calls : SameCallsBut p q a.events b.events

section Payloads

variable {p q : Bytes} (hl : p.length = q.length)

include hl

/-- Sending looks at the length of what is left, and not at its bytes. -/
theorem sendAll_sameBut (place : Nat) (outcomes : List SendOutcome) :
    (sendAll (p.drop place) outcomes).result = (sendAll (q.drop place) outcomes).result ∧
      (sendAll (p.drop place) outcomes).unused = (sendAll (q.drop place) outcomes).unused ∧
      SameCallsBut p q (sendAll (p.drop place) outcomes).events
        (sendAll (q.drop place) outcomes).events := by
  induction outcomes generalizing place with
  | nil =>
    have hlength := length_drop_congr hl place
    have hempty := isEmpty_congr hlength
    simp only [sendAll, hempty, hlength, true_and]
    split
    · exact .nil
    · exact .cons (.sent place _) .nil
  | cons outcome more ih =>
    have hlength := length_drop_congr hl place
    have hempty := isEmpty_congr hlength
    cases hq : (q.drop place).isEmpty with
    | true =>
      simp only [sendAll, hempty, hq, if_true, true_and]
      exact .nil
    | false =>
      simp only [sendAll, hempty, hq, Bool.false_eq_true, if_false]
      cases outcome with
      | accept count =>
        obtain ⟨hresult, hunused, hcalls⟩ := ih (place + count)
        simp only [List.drop_drop, hlength, Sent.after]
        exact ⟨hresult, hunused, .cons (.sent place _) hcalls⟩
      | fail errno =>
        obtain ⟨hresult, hunused, hcalls⟩ := ih place
        dsimp only
        split
        · exact ⟨hresult, hunused, .cons (.sent place _) hcalls⟩
        · exact ⟨rfl, rfl, .cons (.sent place _) .nil⟩

theorem Peer.roundTrip_sameBut (peer : Peer) {first second : Command} (hp : first.encode = p)
    (hq : second.encode = q) :
    (peer.roundTrip first).SameBut p q (peer.roundTrip second) := by
  obtain ⟨hresult, hunused, hcalls⟩ := sendAll_sameBut hl 0 peer.sends
  rw [List.drop_zero, List.drop_zero] at hresult hunused hcalls
  simp only [roundTrip, send, hp, hq, hresult, hunused]
  cases (sendAll q peer.sends).result with
  | error cause => exact ⟨rfl, rfl, hcalls⟩
  | ok sent => exact ⟨rfl, rfl, List.rel_append hcalls (SameCallsBut.refl p q _)⟩

end Payloads

/-- Two targets that differ in the credentials only. -/
structure Target.SameButCredentials (a b : Target) : Prop where
  endpoint : a.endpoint = b.endpoint
  timeoutMs : a.timeoutMs = b.timeoutMs
  user : a.user.length = b.user.length
  password : a.password.length = b.password.length

/-- Dialling came to the same. -/
structure Dialled.SameBut (p q : Bytes) (a b : Dialled) : Prop where
  result : a.result = b.result
  log : a.log = b.log
  calls : SameCallsBut p q a.events b.events

/-- What a target sends to greet its server. -/
def Target.frame (target : Target) : Bytes := wire target.greeting

namespace Target

theorem frame_of_password {target : Target} (hp : target.password.isEmpty = false) :
    target.frame = target.authCommand.encode := by
  simp only [frame, greeting, hp, Bool.false_eq_true, if_false, wire, List.flatMap_singleton]

theorem encode_authCommand_of_no_user {target : Target} (hu : target.user = []) :
    target.authCommand.encode =
      (Command.sizeLine Command.arrayMark 2 ++ Command.encodeArgument (utf8 "AUTH") ++
        Command.sizeLine Command.bulkMark target.password.length) ++ target.user ++ [] ++
      target.password ++ Bytes.crlf := by
  simp only [authCommand, hu, List.isEmpty_nil, if_true, Command.encode, List.length_cons,
    List.length_nil, List.flatMap_cons, List.flatMap_nil, Command.encodeArgument, List.append_nil,
    List.append_assoc]

theorem encode_authCommand_of_user {target : Target} (hu : target.user.isEmpty = false) :
    target.authCommand.encode =
      (Command.sizeLine Command.arrayMark 3 ++ Command.encodeArgument (utf8 "AUTH") ++
        Command.sizeLine Command.bulkMark target.user.length) ++ target.user ++
      (Bytes.crlf ++ Command.sizeLine Command.bulkMark target.password.length) ++
      target.password ++ Bytes.crlf := by
  simp only [authCommand, hu, Bool.false_eq_true, if_false, Command.encode, List.length_cons,
    List.length_nil, List.flatMap_cons, List.flatMap_nil, Command.encodeArgument, List.append_nil,
    List.append_assoc]

end Target

namespace Target.SameButCredentials

variable {a b : Target}

theorem password_isEmpty (h : a.SameButCredentials b) :
    a.password.isEmpty = b.password.isEmpty := isEmpty_congr h.password

/-- The frames carry the credentials in the same places, and are the same elsewhere. -/
theorem frame_eq (h : a.SameButCredentials b) (hp : a.password.isEmpty = false) :
    ∃ before between after, a.frame = before ++ a.user ++ between ++ a.password ++ after ∧
      b.frame = before ++ b.user ++ between ++ b.password ++ after := by
  rw [frame_of_password hp, frame_of_password (h.password_isEmpty ▸ hp)]
  have huser := isEmpty_congr h.user
  cases hu : b.user.isEmpty with
  | true =>
    have ha := encode_authCommand_of_no_user (List.isEmpty_iff.mp (huser.trans hu))
    rw [h.password] at ha
    exact ⟨_, _, _, ha, encode_authCommand_of_no_user (List.isEmpty_iff.mp hu)⟩
  | false =>
    have ha := encode_authCommand_of_user (huser.trans hu)
    rw [h.password, h.user] at ha
    exact ⟨_, _, _, ha, encode_authCommand_of_user hu⟩

theorem length_frame (h : a.SameButCredentials b) : a.frame.length = b.frame.length := by
  cases hp : a.password.isEmpty with
  | true =>
    simp only [frame, greeting, ← h.password_isEmpty, hp, if_true]
  | false =>
    obtain ⟨before, between, after, ha, hb⟩ := h.frame_eq hp
    simp only [ha, hb, List.length_append, h.user, h.password]

theorem greet (h : a.SameButCredentials b) (script : Script) :
    (a.greet script).1 = (b.greet script).1 ∧
      SameCallsBut a.frame b.frame (a.greet script).2 (b.greet script).2 := by
  cases hp : b.password.isEmpty with
  | true =>
    simp only [Target.greet, h.password_isEmpty, hp, if_true, true_and]
    exact .nil
  | false =>
    have htrip := Peer.roundTrip_sameBut h.length_frame script.peer
      (frame_of_password (h.password_isEmpty.trans hp)).symm (frame_of_password hp).symm
    simp only [Target.greet, h.password_isEmpty, hp, Bool.false_eq_true, if_false, authenticate,
      htrip.result, htrip.peer, h.endpoint]
    split
    · exact ⟨rfl, htrip.calls⟩
    · split
      · exact ⟨rfl, htrip.calls⟩
      · exact ⟨rfl, htrip.calls⟩

theorem preparations (h : a.SameButCredentials b) (address : Address) (faults : Faults) :
    a.preparations address faults = b.preparations address faults := by
  simp only [Target.preparations, h.endpoint, h.timeoutMs]

theorem connectedLog (h : a.SameButCredentials b) (noDelay : Option Errno) :
    a.connectedLog noDelay = b.connectedLog noDelay := by
  simp only [Target.connectedLog, h.endpoint]

theorem dial (h : a.SameButCredentials b) (script : Script) :
    (a.dial script).SameBut a.frame b.frame (b.dial script) := by
  obtain ⟨hresult, hcalls⟩ := h.greet script
  generalize ha : a.greet script = talk at hresult hcalls
  generalize hb : b.greet script = talk' at hresult hcalls
  obtain ⟨result, talk⟩ := talk
  obtain ⟨result', talk'⟩ := talk'
  change result = result' at hresult
  subst hresult
  simp only [Target.dial, h.endpoint, h.preparations, h.connectedLog, ha, hb]
  split
  · exact ⟨rfl, rfl, .nil⟩
  · split
    · exact ⟨rfl, rfl, SameCallsBut.refl _ _ _⟩
    · rename_i events _
      have hconnected := List.rel_append
        (SameCallsBut.refl a.frame b.frame (events ++ [.noDelay script.faults.noDelay])) hcalls
      cases result with
      | error cause => exact ⟨rfl, rfl, List.rel_append hconnected (SameCallsBut.refl _ _ _)⟩
      | ok peer => exact ⟨rfl, rfl, hconnected⟩

end Target.SameButCredentials

end RespLoad
