import RespLoad.Proofs.Connection.Descriptors

/-!
# Who owns which socket

Connection objects are opened, used, moved between and destroyed in any order, and the system gives
each new socket any descriptor that is not open. After every step the open descriptors are those that
the objects hold, each held by one object, and no call was made on a descriptor that was not open. What
a failed transfer leaves in a socket's buffers is not spoken of.
-/
namespace RespLoad

variable {size : Nat}

/-- Sending, reading and a round trip. -/
def PoolAction.isTransfer : PoolAction size → Bool
  | .send _ _ | .read _ | .roundTrip _ _ => true
  | _ => false

namespace Pool

/-- The descriptor that an object holds. -/
def descriptor? (pool : Pool size) (object : Fin size) : Option Nat :=
  (getElem pool.objects object object.isLt).map Held.descriptor

/-- What can happen next: an action, for which the system may choose descriptors in any way, or the
end of an object. The place of an object that has ended may be taken by a new one. -/
inductive Step (size : Nat) where
  | act (allocator : Allocator) (action : PoolAction size)
  | destroy (object : Fin size)

def step (pool : Pool size) : Step size → Pool size
  | .act allocator action => (pool.act allocator action).2
  | .destroy object => pool.closeObject object

/-- The pool after steps in order. -/
def after (pool : Pool size) (steps : List (Step size)) : Pool size := steps.foldl step pool

/-- No call was out of place, and the descriptors that the calls left open are those that the objects
hold, each held by one object. -/
structure Owned (pool : Pool size) : Prop where
  inPlace : Descriptors.after? [] pool.calls = some pool.inUse
  held : ∀ descriptor, descriptor ∈ pool.inUse ↔ ∃ object, pool.descriptor? object = some descriptor
  single : ∀ (a b : Fin size) (descriptor : Nat), pool.descriptor? a = some descriptor →
    pool.descriptor? b = some descriptor → a = b

theorem Owned.nodup {pool : Pool size} (h : pool.Owned) : pool.inUse.Nodup :=
  Descriptors.nodup_of_after? h.inPlace List.nodup_nil

theorem descriptor?_put (pool : Pool size) (object : Fin size) (held : Option Held)
    (other : Fin size) :
    (pool.put object held).descriptor? other =
      if other = object then held.map Held.descriptor else pool.descriptor? other := by
  have hget : (pool.put object held).objects[other] =
      if object.val = other.val then held else pool.objects[other] :=
    Vector.getElem_set object.isLt other.isLt
  rw [descriptor?, hget]
  by_cases hsame : other = object
  · rw [if_pos hsame, if_pos (congrArg Fin.val hsame.symm)]
  · rw [if_neg hsame, if_neg fun hval => hsame (Fin.ext hval.symm)]
    rfl

/-- Calls that are in place and leave open what is held afterwards keep the objects in order. -/
theorem Owned.of_calls {pool later : Pool size} {calls : List SocketCall} (h : pool.Owned)
    (hc : later.calls = pool.calls ++ calls)
    (hp : Descriptors.after? pool.inUse calls = some later.inUse)
    (hheld : ∀ descriptor, descriptor ∈ later.inUse ↔
      ∃ object, later.descriptor? object = some descriptor)
    (hsingle : ∀ (a b : Fin size) (descriptor : Nat), later.descriptor? a = some descriptor →
      later.descriptor? b = some descriptor → a = b) : later.Owned := by
  refine ⟨?_, hheld, hsingle⟩
  rw [hc, Descriptors.after?_append_of_some h.inPlace, hp]

theorem owned_closed (scripts : List Script) : (closed scripts : Pool size).Owned := by
  have hnone : ∀ object : Fin size, (closed scripts : Pool size).descriptor? object = none := by
    intro object
    have hget : (closed scripts : Pool size).objects[object] = none :=
      Vector.getElem_replicate object.isLt
    rw [descriptor?, hget]
    rfl
  refine ⟨rfl, fun descriptor => ?_, fun a b descriptor ha => ?_⟩
  · constructor
    · intro hmem
      cases hmem
    · rintro ⟨object, ho⟩
      rw [hnone object] at ho
      cases ho
  · rw [hnone a] at ha
    cases ha

theorem closeObject_of_none {pool : Pool size} {object : Fin size}
    (h : getElem pool.objects object object.isLt = none) : pool.closeObject object = pool := by
  rw [closeObject, h]

theorem closeObject_of_some {pool : Pool size} {object : Fin size} {held : Held}
    (h : getElem pool.objects object object.isLt = some held) :
    pool.closeObject object =
      ({ pool with inUse := pool.inUse.erase held.descriptor }.record held.connection
        held.descriptor [.close]).put object none := by
  rw [closeObject, h]

theorem descriptor?_closeObject (pool : Pool size) (object other : Fin size) :
    (pool.closeObject object).descriptor? other =
      if other = object then none else pool.descriptor? other := by
  cases ho : pool.objects[object] with
  | none =>
    rw [closeObject_of_none ho]
    by_cases hsame : other = object
    · rw [if_pos hsame, hsame, descriptor?, ho]
      rfl
    · rw [if_neg hsame]
  | some held =>
    rw [closeObject_of_some ho]
    exact descriptor?_put _ object none other

theorem owned_closeObject {pool : Pool size} (h : pool.Owned) (object : Fin size) :
    (pool.closeObject object).Owned := by
  cases ho : pool.objects[object] with
  | none => rwa [closeObject_of_none ho]
  | some held =>
    have hd : pool.descriptor? object = some held.descriptor := by rw [descriptor?, ho]; rfl
    have hmem : held.descriptor ∈ pool.inUse := (h.held _).mpr ⟨object, hd⟩
    have hcalls : (pool.closeObject object).calls =
        pool.calls ++ Descriptors.on held.connection held.descriptor [.close] := by
      rw [closeObject_of_some ho]
      rfl
    have huse : (pool.closeObject object).inUse = pool.inUse.erase held.descriptor := by
      rw [closeObject_of_some ho]
      rfl
    have hp := Descriptors.after?_close hmem held.connection
    refine h.of_calls hcalls (hp.trans (congrArg some huse.symm)) ?_ ?_
    · intro descriptor
      rw [huse, h.nodup.mem_erase_iff, h.held]
      constructor
      · rintro ⟨hne, other, hother⟩
        refine ⟨other, ?_⟩
        rw [descriptor?_closeObject, if_neg, hother]
        rintro rfl
        rw [hd, Option.some.injEq] at hother
        exact hne hother.symm
      · rintro ⟨other, hother⟩
        rw [descriptor?_closeObject] at hother
        split at hother
        · cases hother
        · rename_i hne
          refine ⟨?_, other, hother⟩
          rintro rfl
          exact hne (h.single _ _ _ hother hd)
    · intro a b descriptor ha hb
      rw [descriptor?_closeObject] at ha hb
      split at ha
      · cases ha
      · split at hb
        · cases hb
        · exact h.single a b descriptor ha hb

/-- A socket that nobody holds, put into an object that holds none. -/
theorem Owned.hold {pool later : Pool size} {calls : List SocketCall} (h : pool.Owned)
    {object : Fin size} {descriptor : Nat} (hnone : pool.descriptor? object = none)
    (hnew : descriptor ∉ pool.inUse) (hc : later.calls = pool.calls ++ calls)
    (huse : later.inUse = descriptor :: pool.inUse)
    (hp : Descriptors.after? pool.inUse calls = some (descriptor :: pool.inUse))
    (hd : ∀ other, later.descriptor? other =
      if other = object then some descriptor else pool.descriptor? other) : later.Owned := by
  refine h.of_calls hc (by rw [hp, huse]) ?_ ?_
  · intro other
    rw [huse, List.mem_cons, h.held]
    constructor
    · rintro (rfl | ⟨holder, hh⟩)
      · exact ⟨object, by rw [hd, if_pos rfl]⟩
      · refine ⟨holder, ?_⟩
        rw [hd, if_neg, hh]
        rintro rfl
        rw [hnone] at hh
        cases hh
    · rintro ⟨holder, hh⟩
      rw [hd] at hh
      split at hh
      · exact Or.inl (Option.some.inj hh).symm
      · exact Or.inr ⟨holder, hh⟩
  · intro a b other ha hb
    have hfresh : ∀ holder, pool.descriptor? holder ≠ some descriptor :=
      fun holder hh => hnew ((h.held descriptor).mpr ⟨holder, hh⟩)
    rw [hd] at ha hb
    split at ha
    · rename_i hao
      split at hb
      · rename_i hbo
        rw [hao, hbo]
      · rw [← Option.some.inj ha] at hb
        exact absurd hb (hfresh b)
    · split at hb
      · rw [← Option.some.inj hb] at ha
        exact absurd ha (hfresh a)
      · exact h.single a b other ha hb

/-- Opening closes what the object held; then the object holds the new socket if the answer is that
it is done, and none if it is not. -/
theorem openObject_spec (allocator : Allocator) {pool : Pool size} (h : pool.Owned)
    (object : Fin size) (target : Target) :
    (pool.openObject allocator object target).2.Owned ∧
    (∀ other, other ≠ object → (pool.openObject allocator object target).2.descriptor? other =
      pool.descriptor? other) ∧
    (((pool.openObject allocator object target).1 = .done ∧
        ∃ descriptor, (pool.openObject allocator object target).2.descriptor? object =
          some descriptor) ∨
      ((∃ cause, (pool.openObject allocator object target).1 = .refused cause) ∧
        (pool.openObject allocator object target).2.descriptor? object = none)) := by
  have hclosed := owned_closeObject h object
  have hnone : (pool.closeObject object).descriptor? object = none := by
    rw [descriptor?_closeObject, if_pos rfl]
  have hnew := allocator.pick_not_mem (pool.closeObject object).inUse
  have hp := Descriptors.after?_dial hnew (pool.closeObject object).tried target
    ((pool.closeObject object).scripts.headD Script.refused)
  cases hr : (target.dial ((pool.closeObject object).scripts.headD Script.refused)).result with
  | error cause =>
    rw [hr] at hp
    simp only [openObject, hr]
    refine ⟨hclosed.of_calls rfl hp hclosed.held hclosed.single, ?_, Or.inr ⟨⟨cause, rfl⟩, hnone⟩⟩
    intro other hne
    exact (descriptor?_closeObject pool object other).trans (if_neg hne)
  | ok peer =>
    rw [hr] at hp
    simp only [openObject, hr]
    refine ⟨hclosed.hold hnone hnew rfl rfl hp ?_, ?_, Or.inl ⟨trivial, ?_⟩⟩
    · intro other
      exact descriptor?_put _ object _ other
    · intro other hne
      rw [descriptor?_put, if_neg hne]
      exact (descriptor?_closeObject pool object other).trans (if_neg hne)
    · exact ⟨_, (descriptor?_put _ object _ object).trans (if_pos rfl)⟩

/-- Talking over a socket makes calls on an open descriptor only, or none, and changes no owner. -/
theorem talk_spec {α : Type} {pool : Pool size} (h : pool.Owned) (object : Fin size)
    (onClosed : IoError) (calls : Peer → Stretch α) (answer : α → PoolAnswer)
    (hu : ∀ peer, ∀ event ∈ (calls peer).events, event.usesSocket = true) :
    (pool.talk object onClosed calls answer).2.Owned ∧
    ∀ other, (pool.talk object onClosed calls answer).2.descriptor? other =
      pool.descriptor? other := by
  cases ho : pool.objects[object] with
  | none =>
    have hpool : (pool.talk object onClosed calls answer).2 = pool := by simp only [talk, ho]
    rw [hpool]
    exact ⟨h, fun _ => rfl⟩
  | some held =>
    have hd : pool.descriptor? object = some held.descriptor := by rw [descriptor?, ho]; rfl
    have hmem : held.descriptor ∈ pool.inUse := (h.held _).mpr ⟨object, hd⟩
    have hp := Descriptors.after?_of_uses hmem (hu held.peer) held.connection
    have hpool : (pool.talk object onClosed calls answer).2 =
        (pool.record held.connection held.descriptor (calls held.peer).events).put object
          (some { held with peer := (calls held.peer).peer }) := by
      simp only [talk, ho]
      split <;> rfl
    have hsame : ∀ other, (pool.talk object onClosed calls answer).2.descriptor? other =
        pool.descriptor? other := by
      intro other
      rw [hpool, descriptor?_put]
      split
      · rename_i heq
        rw [heq, hd]
        rfl
      · rfl
    refine ⟨?_, hsame⟩
    have hcalls : (pool.talk object onClosed calls answer).2.calls =
        pool.calls ++ Descriptors.on held.connection held.descriptor (calls held.peer).events := by
      rw [hpool]
      rfl
    have huse : (pool.talk object onClosed calls answer).2.inUse = pool.inUse := by
      rw [hpool]
      rfl
    refine h.of_calls hcalls (hp.trans (congrArg some huse.symm)) ?_ ?_
    · intro descriptor
      simp only [huse, hsame, h.held]
    · intro a b descriptor ha hb
      rw [hsame] at ha hb
      exact h.single a b descriptor ha hb

theorem moveSocket_self (pool : Pool size) (object : Fin size) :
    pool.moveSocket object object = pool := by
  have hget : (pool.put object none).objects[object] = none :=
    Vector.getElem_set_self object.isLt
  rw [moveSocket, closeObject_of_none hget]
  simp only [put, Vector.set_set]
  have hset : pool.objects.set object pool.objects[object] = pool.objects :=
    Vector.set_getElem_self object.isLt
  rw [hset]

/-- Taking a socket out of one object does not disturb the closing of another. -/
theorem closeObject_put {pool : Pool size} {source destination : Fin size}
    (hne : source ≠ destination) :
    (pool.put source none).closeObject destination =
      (pool.closeObject destination).put source none := by
  have hval : source.val ≠ destination.val := fun hv => hne (Fin.ext hv)
  have hget : (pool.put source none).objects[destination] = pool.objects[destination] :=
    Vector.getElem_set_ne source.isLt destination.isLt hval
  cases ho : pool.objects[destination] with
  | none => rw [closeObject_of_none ho, closeObject_of_none (hget.trans ho)]
  | some held =>
    rw [closeObject_of_some ho, closeObject_of_some (hget.trans ho)]
    simp only [put, record]
    rw [Vector.set_comm none none hval]

theorem descriptor?_moveSocket (pool : Pool size) {source destination : Fin size}
    (hne : source ≠ destination) (other : Fin size) :
    (pool.moveSocket source destination).descriptor? other =
      if other = destination then pool.descriptor? source
      else if other = source then none else pool.descriptor? other := by
  rw [moveSocket, closeObject_put hne, descriptor?_put, descriptor?_put, descriptor?_closeObject]
  by_cases hd : other = destination
  · rw [if_pos hd, if_pos hd]
    rfl
  · simp only [if_neg hd]
    rfl

theorem owned_moveSocket {pool : Pool size} (h : pool.Owned) (source destination : Fin size) :
    (pool.moveSocket source destination).Owned := by
  by_cases hne : source = destination
  · rw [hne, moveSocket_self]
    exact h
  · have hclosed := owned_closeObject h destination
    have hmoved : ∀ other, (pool.moveSocket source destination).descriptor? other =
        if other = destination then (pool.closeObject destination).descriptor? source
        else if other = source then none else (pool.closeObject destination).descriptor? other := by
      intro other
      rw [descriptor?_moveSocket pool hne, descriptor?_closeObject, if_neg hne,
        descriptor?_closeObject]
      by_cases hd : other = destination
      · rw [if_pos hd, if_pos hd]
      · simp only [if_neg hd]
    have hcalls : (pool.moveSocket source destination).calls =
        (pool.closeObject destination).calls ++ [] := by
      rw [moveSocket, closeObject_put hne, List.append_nil]
      rfl
    have huse : (pool.moveSocket source destination).inUse =
        (pool.closeObject destination).inUse := by
      rw [moveSocket, closeObject_put hne]
      rfl
    have hnone : (pool.closeObject destination).descriptor? destination = none := by
      rw [descriptor?_closeObject, if_pos rfl]
    refine hclosed.of_calls hcalls (congrArg some huse.symm) ?_ ?_
    · intro descriptor
      rw [huse, hclosed.held]
      constructor
      · rintro ⟨holder, hh⟩
        by_cases hs : holder = source
        · exact ⟨destination, by rw [hmoved, if_pos rfl, ← hs, hh]⟩
        · refine ⟨holder, ?_⟩
          rw [hmoved, if_neg, if_neg hs, hh]
          rintro rfl
          rw [hnone] at hh
          cases hh
      · rintro ⟨holder, hh⟩
        rw [hmoved] at hh
        split at hh
        · exact ⟨source, hh⟩
        · split at hh
          · cases hh
          · exact ⟨holder, hh⟩
    · intro a b descriptor ha hb
      rw [hmoved] at ha hb
      split at ha
      · rename_i had
        split at hb
        · rename_i hbd
          rw [had, hbd]
        · split at hb
          · cases hb
          · rename_i hbs
            exact absurd (hclosed.single _ _ _ hb ha) hbs
      · split at ha
        · cases ha
        · rename_i has
          split at hb
          · exact absurd (hclosed.single _ _ _ ha hb) has
          · split at hb
            · cases hb
            · exact hclosed.single a b descriptor ha hb

theorem usesSocket_send (payload : Bytes) (peer : Peer) :
    ∀ event ∈ (peer.send payload).events, event.usesSocket = true :=
  (sending_sendAll payload peer.sends).usesSocket

theorem usesSocket_read (peer : Peer) :
    ∀ event ∈ peer.read.events, event.usesSocket = true :=
  (reading_receive peer.lasting peer.reads).usesSocket

theorem usesSocket_roundTrip (command : Command) (peer : Peer) :
    ∀ event ∈ (peer.roundTrip command).events, event.usesSocket = true :=
  (roundTrip_roundTrip peer command).usesSocket

theorem owned_act (allocator : Allocator) {pool : Pool size} (h : pool.Owned)
    (action : PoolAction size) : (pool.act allocator action).2.Owned := by
  cases action with
  | openTo object target => exact (openObject_spec allocator h object target).1
  | send object payload => exact (talk_spec h object _ _ _ (usesSocket_send payload)).1
  | read object => exact (talk_spec h object _ _ _ usesSocket_read).1
  | roundTrip object command =>
    exact (talk_spec h object _ _ _ (usesSocket_roundTrip command)).1
  | close object => exact owned_closeObject h object
  | moveAssign source destination =>
    simp only [act]
    split
    · exact h
    · exact owned_moveSocket h source destination
  | moveConstruct source destination => exact owned_moveSocket h source destination

theorem owned_step {pool : Pool size} (h : pool.Owned) (next : Step size) :
    (pool.step next).Owned := by
  cases next with
  | act allocator action => exact owned_act allocator h action
  | destroy object => exact owned_closeObject h object

theorem owned_after {pool : Pool size} (h : pool.Owned) (steps : List (Step size)) :
    (pool.after steps).Owned := by
  induction steps generalizing pool with
  | nil => exact h
  | cons next more ih => exact ih (owned_step h next)

theorem descriptor?_transfer (allocator : Allocator) {pool : Pool size} (h : pool.Owned)
    {action : PoolAction size} (ht : action.isTransfer = true) (object : Fin size) :
    (pool.act allocator action).2.descriptor? object = pool.descriptor? object := by
  cases action with
  | send other payload => exact (talk_spec h other _ _ _ (usesSocket_send payload)).2 object
  | read other => exact (talk_spec h other _ _ _ usesSocket_read).2 object
  | roundTrip other command =>
    exact (talk_spec h other _ _ _ (usesSocket_roundTrip command)).2 object
  | _ => cases ht

theorem getElem?_isOpen (pool : Pool size) (object : Fin size) :
    pool.isOpen[object.val]? = some (pool.descriptor? object).isSome := by
  have hl : object.val < pool.objects.toList.length := by
    rw [Vector.length_toList]
    exact object.isLt
  rw [isOpen, List.getElem?_map, List.getElem?_eq_getElem hl, Vector.getElem_toList,
    Option.map_some, descriptor?, Option.isSome_map]
  rfl

/-- Objects that are closed one after the other hold no socket then, nor does one that held none. -/
theorem owned_foldl_closeObject {pool : Pool size} (h : pool.Owned) (objects : List (Fin size)) :
    (objects.foldl closeObject pool).Owned ∧
    ∀ object, object ∈ objects ∨ pool.descriptor? object = none →
      (objects.foldl closeObject pool).descriptor? object = none := by
  induction objects generalizing pool with
  | nil => exact ⟨h, fun object ho => ho.resolve_left List.not_mem_nil⟩
  | cons first more ih =>
    obtain ⟨howned, hnone⟩ := ih (owned_closeObject h first)
    refine ⟨howned, fun object ho => hnone object ?_⟩
    rw [descriptor?_closeObject]
    rcases ho with hmem | hd
    · rcases List.mem_cons.mp hmem with hfirst | hmore
      · exact Or.inr (if_pos hfirst)
      · exact Or.inl hmore
    · rw [hd]
      exact Or.inr (ite_self none)

/-- No descriptor is open any more when all objects have been destroyed. -/
theorem after?_destroy {pool : Pool size} (h : pool.Owned) :
    Descriptors.after? [] pool.destroy.calls = some [] := by
  obtain ⟨howned, hnone⟩ : pool.destroy.Owned ∧ _ :=
    owned_foldl_closeObject h (List.finRange size)
  have hempty : pool.destroy.inUse = [] := by
    rw [List.eq_nil_iff_forall_not_mem]
    intro descriptor hmem
    obtain ⟨object, ho⟩ := (howned.held descriptor).mp hmem
    have hobject := hnone object (Or.inl (List.mem_finRange object))
    exact absurd (ho.symm.trans hobject) (Option.some_ne_none descriptor)
  rw [howned.inPlace, hempty]

/-- Socket ownership. After any steps the open descriptors are those that the objects hold, each held
by one object, which says that it is open. Every call but the making of a socket was made on a
descriptor that was open then. Opening leaves the object open if it answers that it is done and closed
if it does not, and a transfer, whatever it answers, changes no owner. Once all objects are destroyed,
each descriptor has been opened and closed by turns and was closed last. -/
theorem sockets_owned (scripts : List Script) (steps : List (Step size)) :
    let pool : Pool size := (closed scripts).after steps
    pool.Owned ∧
    (∀ object : Fin size, pool.isOpen[object.val]? = some true ↔
      ∃ descriptor, pool.descriptor? object = some descriptor) ∧
    (∀ past call future, pool.calls = past ++ call :: future →
      (∀ failure, call.event ≠ .socket failure) →
        ∃ opened, Descriptors.after? [] past = some opened ∧ call.descriptor ∈ opened) ∧
    (∀ allocator object target,
      let later := pool.act allocator (.openTo object target)
      (later.1 = .done ∧ ∃ descriptor, later.2.descriptor? object = some descriptor) ∨
        ((∃ cause, later.1 = .refused cause) ∧ later.2.descriptor? object = none)) ∧
    (∀ allocator action, action.isTransfer = true → ∀ object,
      (pool.act allocator action).2.descriptor? object = pool.descriptor? object) ∧
    Descriptors.after? [] pool.destroy.calls = some [] ∧
    ∀ descriptor, ∃ n, Descriptors.lifetimes descriptor pool.destroy.calls =
      (List.replicate n [Event.socket none, Event.close]).flatten := by
  intro pool
  have h : pool.Owned := owned_after (owned_closed scripts) steps
  have hend := after?_destroy h
  refine ⟨h, ?_, ?_, ?_, ?_, hend, ?_⟩
  · intro object
    rw [getElem?_isOpen, Option.some.injEq, Option.isSome_iff_exists]
  · intro past call future hc hs
    have hplace := h.inPlace
    rw [hc] at hplace
    obtain ⟨opened, later, hopened, heffect⟩ := Descriptors.effect_of_split hplace
    exact ⟨opened, hopened, heffect.mem hs⟩
  · intro allocator object target
    exact (openObject_spec allocator h object target).2.2
  · intro allocator action ht object
    exact descriptor?_transfer allocator h ht object
  · intro descriptor
    obtain ⟨n, hn⟩ := Descriptors.lifetimes_alternate hend List.nodup_nil descriptor
    have hnone : Descriptors.openings [] descriptor = [] := rfl
    rw [hnone, List.nil_append, List.append_nil] at hn
    exact ⟨n, hn⟩

end Pool

end RespLoad
