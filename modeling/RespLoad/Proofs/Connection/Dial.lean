import RespLoad.Proofs.Connection.Transfer
import RespLoad.Connection.Dial

/-!
# The request of dialling

The ways in which dialling ends (`Dials`), each with the calls that it makes. Dialling sends at most one
request, the one that authenticates, and a connection that was opened has carried it through.
-/
namespace RespLoad

/-- The request that authenticates, if there is one. -/
def Target.greeting (target : Target) : List Command :=
  if target.password.isEmpty then [] else [target.authCommand]

/-- A call that sets up a socket which exists already. -/
def Event.prepares : Event → Bool
  | .receiveTimeout _ _ | .sendTimeout _ _ | .connect _ _ _ | .noDelay _ => true
  | _ => false

theorem mem_of_mem_upToFailure {calls : List (Event × Bytes)} {event : Event}
    (h : event ∈ (upToFailure calls).1) : ∃ call ∈ calls, call.1 = event := by
  induction calls with
  | nil => cases h
  | cons call more ih =>
    obtain ⟨first, name⟩ := call
    rw [upToFailure] at h
    split at h
    · rw [List.mem_singleton] at h
      exact ⟨_, List.mem_cons_self, h.symm⟩
    · rcases List.mem_cons.mp h with rfl | hm
      · exact ⟨_, List.mem_cons_self, rfl⟩
      · obtain ⟨other, ho, he⟩ := ih hm
        exact ⟨other, List.mem_cons_of_mem _ ho, he⟩

/-- What sets a socket up is a socket call and, if it succeeds, calls on the socket that there is
then, up to the first that fails. -/
theorem upToFailure_preparations (target : Target) (address : Address) (faults : Faults) :
    (∃ errno failure, upToFailure (target.preparations address faults) =
      ([.socket (some errno)], some failure)) ∨
    ∃ calls failure, upToFailure (target.preparations address faults) =
      (.socket none :: calls, failure) ∧ ∀ event ∈ calls, event.prepares = true := by
  obtain ⟨more, hmore, hprepare⟩ : ∃ more, target.preparations address faults =
      (.socket faults.socket, utf8 "socket()") :: more ∧
        ∀ call ∈ more, call.1.prepares = true := by
    refine ⟨_, rfl, ?_⟩
    refine List.forall_mem_append.mpr ⟨?_, List.forall_mem_singleton.mpr rfl⟩
    split
    · exact List.forall_mem_cons.mpr ⟨rfl, List.forall_mem_singleton.mpr rfl⟩
    · exact List.forall_mem_nil _
  rw [hmore]
  cases hf : faults.socket with
  | some errno => exact Or.inl ⟨errno, _, rfl⟩
  | none =>
    refine Or.inr ⟨(upToFailure more).1, (upToFailure more).2, rfl, ?_⟩
    intro event he
    obtain ⟨call, hc, rfl⟩ := mem_of_mem_upToFailure he
    exact hprepare call hc

/-- The ways in which dialling ends, with all the calls it made: `calls` set the new socket up, and
`talk` is the greeting over it. -/
inductive Dials (target : Target) (script : Script) : Dialled → Prop
  | unresolved (cause : OpenError) : Dials target script ⟨.error cause, [], []⟩
  | refused (errno : Errno) (cause : OpenError) :
      Dials target script ⟨.error cause, [.socket (some errno)], []⟩
  | unprepared {calls : List Event} (hp : ∀ event ∈ calls, event.prepares = true)
      (cause : OpenError) :
      Dials target script ⟨.error cause, .socket none :: calls ++ [.close], []⟩
  | rejected {calls talk : List Event} {cause : OpenError}
      (hp : ∀ event ∈ calls, event.prepares = true)
      (hg : target.greet script = (.error cause, talk)) (log : List LogEntry) :
      Dials target script ⟨.error cause, .socket none :: calls ++ talk ++ [.close], log⟩
  | connected {calls talk : List Event} {peer : Peer}
      (hp : ∀ event ∈ calls, event.prepares = true)
      (hg : target.greet script = (.ok peer, talk)) (log : List LogEntry) :
      Dials target script ⟨.ok peer, .socket none :: calls ++ talk, log⟩

theorem dials_dial (target : Target) (script : Script) :
    Dials target script (target.dial script) := by
  unfold Target.dial
  split
  · exact .unresolved _
  · rename_i address haddress
    rcases upToFailure_preparations target address script.faults with
      ⟨errno, failure, hup⟩ | ⟨calls, failure, hup, hprepare⟩
    · rw [hup]
      exact .refused errno _
    · rw [hup]
      cases failure with
      | some cause => exact .unprepared hprepare _
      | none =>
        have hall : ∀ event ∈ calls ++ [.noDelay script.faults.noDelay],
            event.prepares = true :=
          List.forall_mem_append.mpr ⟨hprepare, List.forall_mem_singleton.mpr rfl⟩
        cases hg : target.greet script with
        | mk result talk =>
          cases result with
          | error cause => exact .rejected hall hg _
          | ok peer => exact .connected hall hg _

theorem isSetup_close : ∀ event ∈ [Event.close], event.isSetup = true := by decide

theorem isSetup_of_prepares {calls : List Event} (h : ∀ event ∈ calls, event.prepares = true) :
    ∀ event ∈ Event.socket none :: calls, event.isSetup = true := by
  refine List.forall_mem_cons.mpr ⟨rfl, fun event he => ?_⟩
  have hp := h event he
  cases event <;> first | rfl | cases hp

/-- Authentication is one round trip, whatever comes of it. -/
theorem authenticate_events (target : Target) (peer : Peer) :
    (target.authenticate peer).2 = (peer.roundTrip target.authCommand).events := by
  unfold Target.authenticate
  dsimp only
  split
  · rfl
  · split <;> rfl

theorem exists_reply_of_authenticate {target : Target} {peer after : Peer}
    (h : (target.authenticate peer).1 = .ok after) :
    ∃ reply, (peer.roundTrip target.authCommand).result.toOption = some reply := by
  unfold Target.authenticate at h
  cases hr : (peer.roundTrip target.authCommand).result with
  | error cause => simp only [hr] at h; cases h
  | ok reply => exact ⟨reply, rfl⟩

theorem sendsInTurn_greet (target : Target) (script : Script) :
    SendsInTurn target.greeting (target.greet script).2 := by
  unfold Target.greet Target.greeting
  split
  · exact sendsInTurn_of_setup (by simp)
  · rw [authenticate_events]
    exact (roundTrip_roundTrip _ _).sendsInTurn

theorem completes_greet {target : Target} {script : Script} {peer : Peer}
    (h : (target.greet script).1 = .ok peer) :
    Completes target.greeting (target.greet script).2 := by
  unfold Target.greet Target.greeting at *
  split at h
  · rename_i hp
    rw [if_pos hp, if_pos hp]
    exact completes_of_setup (by simp)
  · rename_i hp
    rw [if_neg hp, if_neg hp, authenticate_events]
    obtain ⟨reply, hr⟩ := exists_reply_of_authenticate h
    have ht := roundTrip_roundTrip script.peer target.authCommand
    rw [hr] at ht
    exact ht.completes

/-- Dialling sends the greeting at most, and nothing before the socket is set up. -/
theorem turns_dial (target : Target) (script : Script) :
    SendsInTurn target.greeting (target.dial script).events ∧
      ∀ peer, (target.dial script).result = .ok peer →
        Completes target.greeting (target.dial script).events := by
  have hturn := sendsInTurn_greet target script
  have hdials := dials_dial target script
  generalize target.dial script = dialled at hdials
  cases hdials with
  | unresolved cause =>
    have hs := sendsInTurn_of_setup (List.forall_mem_nil fun event : Event => event.isSetup = true)
    exact ⟨hs.weaken target.greeting, fun _ h => by cases h⟩
  | refused errno cause =>
    have hs := sendsInTurn_of_setup
      (List.forall_mem_singleton.mpr (rfl : (Event.socket (some errno)).isSetup = true))
    exact ⟨hs.weaken target.greeting, fun _ h => by cases h⟩
  | unprepared hp cause =>
    have hs := (sendsInTurn_of_setup (isSetup_of_prepares hp)).append_setup isSetup_close
    exact ⟨hs.weaken target.greeting, fun _ h => by cases h⟩
  | rejected hp hg log =>
    rw [hg] at hturn
    have hs := (sendsInTurn_of_setup (isSetup_of_prepares hp)).append
      (completes_of_setup (isSetup_of_prepares hp)) hturn
    exact ⟨hs.append_setup isSetup_close, fun _ h => by cases h⟩
  | connected hp hg log =>
    rw [hg] at hturn
    have hs := (sendsInTurn_of_setup (isSetup_of_prepares hp)).append
      (completes_of_setup (isSetup_of_prepares hp)) hturn
    have hc := completes_greet (congrArg Prod.fst hg)
    rw [hg] at hc
    exact ⟨hs, fun _ _ => (completes_of_setup (isSetup_of_prepares hp)).append hc⟩

end RespLoad
