import Mathlib.Algebra.GroupWithZero.Nat
import Mathlib.Data.List.Forall2
import RespLoad.Proofs.Driver.Client
import RespLoad.Driver.Run

/-!
# What the clients come to together

How far a client gets in its range, and how the results of all clients are put together: the samples in
the order of the clients, the tallies as sums, or the error of the first client that failed. The
figures that are computed from the samples are not spoken of.
-/
namespace RespLoad

namespace ClientRun

/-- The samples of a client, in the order in which it took them. -/
def samples (client : ClientRun) : List Float := client.exchanges.map Exchange.latency

def tally (client : ClientRun) : ReplyTally := Exchange.tally client.exchanges

/-- The client ran its range from the front, and to the end unless an iteration failed. -/
structure RunsRange (operation : Operation) (slice : Slice) (client : ClientRun) : Prop where
  inOrder : client.exchanges.map Exchange.index =
    List.range' slice.first client.exchanges.length
  upTo : (client.failure = none ∧ client.exchanges.length = slice.count) ∨
    ∃ cause, client.failure =
        some (.iteration ⟨operation, slice.first + client.exchanges.length, cause⟩) ∧
      client.exchanges.length < slice.count

/-- The client dialled, and ran its range if that got it a connection. -/
structure DialsAndRuns (target : Target) (operation : Operation) (slice : Slice) (script : Script)
    (client : ClientRun) : Prop where
  unconnected : ∀ cause, (target.dial script).result = .error cause →
    client.failure = some (.connection cause)
  connected : ∀ peer, (target.dial script).result = .ok peer → client.RunsRange operation slice

end ClientRun

/-- Iterations are run one after the other up to the first that fails. -/
theorem Iterates.runsRange {operation : Operation} {count index : Nat} {peer : Peer} {clock : Clock}
    {work : Iterations} (h : Iterates operation count index peer clock work) :
    work.exchanges.map Exchange.index = List.range' index work.exchanges.length ∧
      ((work.failure = none ∧ work.exchanges.length = count) ∨
        ∃ cause, work.failure = some ⟨operation, index + work.exchanges.length, cause⟩ ∧
          work.exchanges.length < count) := by
  induction h with
  | done index peer clock => exact ⟨rfl, Or.inl ⟨rfl, rfl⟩⟩
  | failed count clock hr => exact ⟨rfl, Or.inr ⟨_, rfl, Nat.succ_pos count⟩⟩
  | @exchanged count index peer clock reply later hr hl ih =>
    obtain ⟨hindices, hreached⟩ := ih
    refine ⟨?_, ?_⟩
    · simp only [Iterations.after, List.map_cons, List.length_cons, List.range'_succ, hindices]
    · simp only [Iterations.after, List.length_cons]
      rcases hreached with ⟨hnone, hall⟩ | ⟨cause, hsome, hpart⟩
      · exact Or.inl ⟨hnone, congrArg (· + 1) hall⟩
      · refine Or.inr ⟨cause, ?_, Nat.succ_lt_succ hpart⟩
        rw [hsome, Nat.add_assoc, Nat.add_comm 1]

theorem dialsAndRuns_runClient (target : Target) (operation : Operation) (slice : Slice)
    (script : Script) :
    (target.runClient operation slice script).DialsAndRuns target operation slice script := by
  constructor
  · intro cause hd
    rw [runClient_of_error hd]
    simp only [Dialled.leave, hd]
  · intro peer hd
    rw [runClient_of_ok hd]
    obtain ⟨hindices, hreached⟩ :=
      (iterates_iterate operation slice.count slice.first peer script.clock).runsRange
    refine ⟨hindices, ?_⟩
    rcases hreached with ⟨hnone, hall⟩ | ⟨cause, hsome, hpart⟩
    · exact Or.inl ⟨congrArg (Option.map ClientError.iteration) hnone, hall⟩
    · exact Or.inr ⟨cause, congrArg (Option.map ClientError.iteration) hsome, hpart⟩

namespace Driver

/-- What the clients come to one after the other, each on its own range and connection. -/
def clientRuns (target : Target) (clients : Nat) (operation : Operation) (iterations : Nat)
    (network : Network) : List ClientRun :=
  List.zipWith (target.runClient operation) (slices iterations clients)
    (network.nextScripts clients)

/-- The attempt is made of what its clients came to. -/
structure PutTogether (clients : List ClientRun) (attempt : Attempt) : Prop where
  connections : attempt.connections = clients.map ClientRun.events
  succeeds : (∀ client ∈ clients, client.failure = none) →
    ∃ run, attempt.result = .ok run ∧ run.samples = clients.flatMap ClientRun.samples ∧
      run.measurement.replies.empty = (clients.map fun client => client.tally.empty).sum ∧
      run.measurement.replies.errors = (clients.map fun client => client.tally.errors).sum ∧
      run.measurement.replies.lossy = (clients.map fun client => client.tally.lossy).sum
  fails : ∀ (k : Nat) (client : ClientRun) (cause : ClientError), clients[k]? = some client →
    client.failure = some cause → (∀ earlier ∈ clients.take k, earlier.failure = none) →
      ∃ error, attempt.result = .error error ∧
        error.message = utf8 "client " ++ Decimal.ofNat k ++ utf8 ": " ++ cause.message

theorem firstFailure_eq_none_iff {clients : List ClientRun} :
    firstFailure clients = none ↔ ∀ client ∈ clients, client.failure = none := by
  rw [firstFailure, List.findSome?_eq_none_iff]
  constructor
  · intro h client hc
    obtain ⟨k, hk⟩ := List.getElem?_of_mem hc
    exact Option.map_eq_none_iff.mp (h (client, k) (List.mk_mem_zipIdx_iff_getElem?.mpr hk))
  · rintro h ⟨client, index⟩ hm
    exact Option.map_eq_none_iff.mpr (h client (List.fst_mem_of_mem_zipIdx hm))

/-- A merge that succeeds had no client with a failure and is made of all exchanges. -/
theorem run_of_merge {operation : Operation} {iterations : Nat} {elapsed : Int}
    {clients : List ClientRun} {run : OperationRun}
    (h : (merge operation iterations elapsed clients).result = .ok run) :
    (∀ client ∈ clients, client.failure = none) ∧
      run = .ofExchanges operation iterations elapsed (clients.flatMap ClientRun.exchanges) := by
  rw [← firstFailure_eq_none_iff]
  unfold merge at h
  cases hf : firstFailure clients with
  | none =>
    simp only [hf] at h
    cases h
    exact ⟨rfl, rfl⟩
  | some error =>
    simp only [hf] at h
    cases h

theorem connections_merge (operation : Operation) (iterations : Nat) (elapsed : Int)
    (clients : List ClientRun) :
    (merge operation iterations elapsed clients).connections = clients.map ClientRun.events := by
  unfold merge
  dsimp only
  split <;> rfl

/-- The first failure is found at its own place, wherever the numbers begin. -/
theorem findSome?_zipIdx {clients : List ClientRun} {first k : Nat} {client : ClientRun}
    {cause : ClientError} (hk : clients[k]? = some client) (hf : client.failure = some cause)
    (hn : ∀ earlier ∈ clients.take k, earlier.failure = none) :
    (clients.zipIdx first).findSome? (fun (client, index) =>
      client.failure.map (RunError.numbered index)) = some (.numbered (first + k) cause) := by
  induction clients generalizing first k with
  | nil => simp at hk
  | cons head clients ih =>
    rw [List.zipIdx_cons, List.findSome?_cons]
    cases k with
    | zero =>
      cases hk
      simp only [hf, Option.map_some, Nat.add_zero]
    | succ k =>
      rw [List.getElem?_cons_succ] at hk
      rw [List.take_succ_cons] at hn
      obtain ⟨hhead, hmore⟩ := List.forall_mem_cons.mp hn
      simp only [hhead, Option.map_none, ih hk hmore, Nat.add_assoc, Nat.add_comm 1]

theorem putTogether_merge (operation : Operation) (iterations : Nat) (elapsed : Int)
    (clients : List ClientRun) :
    PutTogether clients (merge operation iterations elapsed clients) := by
  refine ⟨connections_merge operation iterations elapsed clients, ?_, ?_⟩
  · intro hall
    simp only [merge, firstFailure_eq_none_iff.mpr hall]
    refine ⟨_, rfl, ?_, ?_, ?_, ?_⟩
    · exact List.map_flatMap
    · exact List.countP_flatMap
    · exact List.countP_flatMap
    · exact List.countP_flatMap
  · intro k client cause hk hf hn
    have hfirst : firstFailure clients = some (.numbered k cause) := by
      have hfound := @findSome?_zipIdx clients 0 k client cause hk hf hn
      rwa [Nat.zero_add] at hfound
    simp only [merge, hfirst]
    exact ⟨_, rfl, rfl⟩

theorem firstFailure_congr {clients others : List ClientRun}
    (h : clients.map ClientRun.failure = others.map ClientRun.failure) :
    firstFailure clients = firstFailure others := by
  have hfirst : ∀ runs : List ClientRun, firstFailure runs =
      (runs.map ClientRun.failure).zipIdx.findSome? fun (failure, index) =>
        failure.map (.numbered index) := by
    intro runs
    rw [List.zipIdx_map, List.findSome?_map]
    rfl
  rw [hfirst, hfirst, h]

/-- What is put together of the clients is their failures, their exchanges and their logs. -/
theorem merge_congr (operation : Operation) (iterations : Nat) (elapsed : Int)
    {clients others : List ClientRun}
    (hfailures : clients.map ClientRun.failure = others.map ClientRun.failure)
    (hexchanges : clients.map ClientRun.exchanges = others.map ClientRun.exchanges)
    (hlog : clients.map ClientRun.log = others.map ClientRun.log) :
    (merge operation iterations elapsed clients).result =
        (merge operation iterations elapsed others).result ∧
      (merge operation iterations elapsed clients).log =
        (merge operation iterations elapsed others).log := by
  have hlength : clients.length = others.length := by
    simpa only [List.length_map] using congrArg List.length hlog
  unfold merge
  rw [firstFailure_congr hfailures, List.flatMap_def, List.flatMap_def, hexchanges, hlog,
    ← List.flatMap_def, ← List.flatMap_def, hlength]
  cases firstFailure others with
  | some cause => exact ⟨rfl, rfl⟩
  | none => exact ⟨rfl, rfl⟩

end Driver

/-- What is the same for each two of two lists is the same for all of them. -/
theorem map_eq_of_forall₂ {α β γ : Type} {r : α → β → Prop} {f : α → γ} {g : β → γ}
    (hf : ∀ a b, r a b → f a = g b) {as : List α} {bs : List β} (h : List.Forall₂ r as bs) :
    as.map f = bs.map g := by
  rw [← List.forall₂_eq_eq_eq, List.forall₂_map_left_iff, List.forall₂_map_right_iff]
  exact h.imp hf

theorem flatMap_eq_of_forall₂ {α β γ : Type} {r : α → β → Prop} {f : α → List γ} {g : β → List γ}
    (hf : ∀ a b, r a b → f a = g b) {as : List α} {bs : List β} (h : List.Forall₂ r as bs) :
    as.flatMap f = bs.flatMap g := by
  rw [List.flatMap_def, List.flatMap_def, map_eq_of_forall₂ hf h]

/-- What is made of the same elements and of related ones is related. -/
theorem forall₂_zipWith {α β γ δ ε : Type} {r : β → γ → Prop} {s : δ → ε → Prop} {f : α → β → δ}
    {g : α → γ → ε} (hfg : ∀ a b c, r b c → s (f a b) (g a c)) (as : List α) {bs : List β}
    {cs : List γ} (h : List.Forall₂ r bs cs) :
    List.Forall₂ s (List.zipWith f as bs) (List.zipWith g as cs) := by
  induction h generalizing as with
  | nil =>
    rw [List.zipWith_nil_right, List.zipWith_nil_right]
    exact .nil
  | cons hfirst _ ih =>
    cases as with
    | nil => exact .nil
    | cons a more => exact .cons (hfg a _ _ hfirst) (ih more)

end RespLoad
