import RespLoad.Proofs.Driver.Slices

/-!
# The even split of the iterations

How the iterations are divided among the clients, said without a division: the ranges lie one behind the
other from the first iteration to the last (`Tiles`), the longer ones in front, and none longer than another
by more than one (`Balanced`). There is only one such split. It is told from where its ranges begin, and it
is the one of the drivers. A loop on words of 64 bits that carries an offset along works it out without a
sum that is too great for a word.
-/
namespace RespLoad

namespace Slice

/-- The index behind the last iteration of a range. -/
def stop (slice : Slice) : Nat := slice.first + slice.count

def bounds (slice : Slice) : Nat × Nat := (slice.first, slice.stop)

theorem eq_of_bounds {slice other : Slice} (hfirst : slice.first = other.first)
    (hstop : slice.stop = other.stop) : slice = other := by
  obtain ⟨first, count⟩ := slice
  obtain ⟨_, _⟩ := other
  cases hfirst
  cases Nat.add_left_cancel hstop
  rfl

end Slice

namespace Driver

/-- Ranges for so many clients that lie one behind the other and make up the run. -/
structure Tiles (iterations clients : Nat) (ranges : List Slice) : Prop where
  all : ranges.length = clients
  begins : ∀ slice, ranges[0]? = some slice → slice.first = 0
  joined : ∀ (k : Nat) (slice next : Slice), ranges[k]? = some slice →
    ranges[k + 1]? = some next → slice.stop = next.first
  ends : ∀ slice, ranges[clients - 1]? = some slice → slice.stop = iterations

/-- No range is longer than one in front of it, or longer than any other by more than one. -/
structure Balanced (ranges : List Slice) : Prop where
  descends : ranges.Pairwise fun before behind => before.count ≥ behind.count
  even : ∀ slice ∈ ranges, ∀ other ∈ ranges, slice.count ≤ other.count + 1

section Counts

/-- Counts that descend from one number to the next smaller one. -/
theorem exists_replicate {least : Nat} {counts : List Nat} (hd : counts.Pairwise (· ≥ ·))
    (hc : ∀ count ∈ counts, count = least ∨ count = least + 1) :
    ∃ longer shorter,
      counts = List.replicate longer (least + 1) ++ List.replicate shorter least := by
  induction counts with
  | nil => exact ⟨0, 0, rfl⟩
  | cons count counts ih =>
    obtain ⟨hhead, htail⟩ := List.pairwise_cons.mp hd
    obtain ⟨hcount, hcounts⟩ := List.forall_mem_cons.mp hc
    rcases hcount with rfl | rfl
    · have hall : ∀ other ∈ counts, other = count := fun other ho => by
        have hle := hhead other ho
        rcases hcounts other ho with h | h <;> omega
      refine ⟨0, counts.length + 1, ?_⟩
      rw [List.replicate_zero, List.nil_append, List.replicate_succ,
        ← List.eq_replicate_of_mem hall]
    · obtain ⟨longer, shorter, hsplit⟩ := ih htail hcounts
      exact ⟨longer + 1, shorter, by rw [List.replicate_succ, List.cons_append, ← hsplit]⟩

/-- How many counts there are and what they sum up to says what they are. -/
theorem counts_eq {counts : List Nat} (hne : counts ≠ []) (hd : counts.Pairwise (· ≥ ·))
    (he : ∀ count ∈ counts, ∀ other ∈ counts, count ≤ other + 1) :
    counts = List.replicate (counts.sum % counts.length) (counts.sum / counts.length + 1) ++
      List.replicate (counts.length - counts.sum % counts.length)
        (counts.sum / counts.length) := by
  obtain ⟨front, least, rfl⟩ := (List.eq_nil_or_concat counts).resolve_left hne
  rw [List.concat_eq_append] at hd he ⊢
  have hlast : least ∈ front ++ [least] := List.mem_append_right _ (List.mem_singleton_self least)
  have hc : ∀ count ∈ front ++ [least], count = least ∨ count = least + 1 := by
    intro count hm
    have hle := he count hm least hlast
    have hge : least ≤ count := by
      rcases List.mem_append.mp hm with hf | hl
      · exact (List.pairwise_append.mp hd).2.2 count hf least (List.mem_singleton_self least)
      · exact (List.mem_singleton.mp hl).ge
    omega
  obtain ⟨longer, shorter, hsplit⟩ := exists_replicate hd hc
  -- The last count is one of the smaller ones, so the greater ones are fewer than all.
  have hshorter : 0 < shorter := by
    rw [hsplit, List.mem_append, List.mem_replicate, List.mem_replicate] at hlast
    omega
  have hsum : (front ++ [least]).sum = longer + least * (longer + shorter) := by
    rw [hsplit, List.sum_append, List.sum_replicate_nat, List.sum_replicate_nat]
    ring
  have hlength : (front ++ [least]).length = longer + shorter := by
    rw [hsplit, List.length_append, List.length_replicate, List.length_replicate]
  have hlt : longer < longer + shorter := Nat.lt_add_of_pos_right hshorter
  rw [hsum, hlength, Nat.add_mul_mod_self_right, Nat.mod_eq_of_lt hlt,
    Nat.add_mul_div_right _ _ (Nat.zero_lt_of_lt hlt), Nat.div_eq_of_lt hlt, Nat.zero_add,
    Nat.add_sub_cancel_left]
  exact hsplit

end Counts

section Uniqueness

variable {iterations clients : Nat} {ranges : List Slice}

/-- Ranges that are joined are told from their lengths. -/
theorem eq_consecutive {first : Nat} (hfirst : ∀ slice, ranges[0]? = some slice → slice.first = first)
    (hjoined : ∀ (k : Nat) (slice next : Slice), ranges[k]? = some slice →
      ranges[k + 1]? = some next → slice.stop = next.first) :
    ranges = consecutive first (ranges.map Slice.count) := by
  induction ranges generalizing first with
  | nil => rfl
  | cons slice more ih =>
    obtain rfl := hfirst slice rfl
    have hmore : more = consecutive (slice.first + slice.count) (more.map Slice.count) :=
      ih (fun next hnext => (hjoined 0 slice next rfl hnext).symm) (fun k => hjoined (k + 1))
    rw [List.map_cons, consecutive, ← hmore]

theorem Tiles.eq_consecutive (h : Tiles iterations clients ranges) :
    ranges = consecutive 0 (ranges.map Slice.count) :=
  Driver.eq_consecutive h.begins h.joined

/-- Ranges in a row reach as far as they are long together. -/
theorem stop_of_getLast? {first : Nat} {counts : List Nat} {slice : Slice}
    (h : (consecutive first counts).getLast? = some slice) : slice.stop = first + counts.sum := by
  induction counts generalizing first with
  | nil => cases h
  | cons count more ih =>
    rw [List.sum_cons, ← Nat.add_assoc]
    cases more with
    | nil => cases h; rfl
    | cons next more => exact ih h

theorem Tiles.sum_count (h : Tiles iterations clients ranges) (hc : 0 < clients) :
    (ranges.map Slice.count).sum = iterations := by
  have hne : ranges ≠ [] := by
    rw [← List.length_pos_iff, h.all]
    exact hc
  obtain ⟨last, hlast⟩ : ∃ last, ranges.getLast? = some last :=
    ⟨_, List.getLast?_eq_some_getLast hne⟩
  have hstop : last.stop = iterations :=
    h.ends last (by rw [← hlast, List.getLast?_eq_getElem?, h.all])
  rw [h.eq_consecutive] at hlast
  rw [← hstop, stop_of_getLast? hlast, Nat.zero_add]

theorem lt_of_getElem?_slices {k : Nat} {slice : Slice}
    (h : (slices iterations clients)[k]? = some slice) : k < clients := by
  have hlt := (List.getElem?_eq_some_iff.mp h).1
  rwa [length_slices] at hlt

theorem first_of_slices {k : Nat} {slice : Slice}
    (h : (slices iterations clients)[k]? = some slice) :
    slice.first = k * (iterations / clients) + min k (iterations % clients) := by
  rw [getElem?_slices (lt_of_getElem?_slices h), Option.some.injEq] at h
  rw [← h]

theorem stop_of_slices {k : Nat} {slice : Slice}
    (h : (slices iterations clients)[k]? = some slice) :
    slice.stop = (k + 1) * (iterations / clients) + min (k + 1) (iterations % clients) := by
  rw [getElem?_slices (lt_of_getElem?_slices h), Option.some.injEq] at h
  rw [← h, Nat.succ_mul]
  simp only [Slice.stop, share]
  split <;> omega

/-- Quotient and remainder make up the run. -/
theorem whole_eq (iterations : Nat) (hc : 0 < clients) :
    clients * (iterations / clients) + min clients (iterations % clients) = iterations := by
  rw [Nat.min_eq_right (Nat.mod_lt _ hc).le, Nat.div_add_mod]

theorem tiles_slices (iterations : Nat) (hc : 0 < clients) :
    Tiles iterations clients (slices iterations clients) where
  all := length_slices iterations clients
  begins := fun slice h => by rw [first_of_slices h, Nat.zero_mul, Nat.zero_min]
  joined := fun k slice next h hnext => by rw [stop_of_slices h, first_of_slices hnext]
  ends := fun slice h => by
    rw [stop_of_slices h, Nat.sub_add_cancel hc, whole_eq iterations hc]

theorem balanced_slices (iterations clients : Nat) : Balanced (slices iterations clients) := by
  have hcounts : (slices iterations clients).map Slice.count =
      (List.range clients).map (share iterations clients) := map_count_consecutive 0 _
  constructor
  · rw [← List.pairwise_map (f := Slice.count) (R := (· ≥ ·)), hcounts, List.pairwise_map]
    refine List.pairwise_lt_range.imp fun {c d} hlt => ?_
    unfold share
    split <;> split <;> omega
  · intro slice hs other ho
    obtain ⟨c, -, hslice⟩ := List.mem_map.mp (hcounts ▸ List.mem_map_of_mem (f := Slice.count) hs)
    obtain ⟨d, -, hother⟩ := List.mem_map.mp (hcounts ▸ List.mem_map_of_mem (f := Slice.count) ho)
    rw [← hslice, ← hother]
    unfold share
    split <;> split <;> omega

/-- What the lengths of the ranges are. -/
theorem Tiles.counts (h : Tiles iterations clients ranges) (hc : 0 < clients) (hb : Balanced ranges) :
    ranges.map Slice.count =
      List.replicate (iterations % clients) (iterations / clients + 1) ++
        List.replicate (clients - iterations % clients) (iterations / clients) := by
  have hlength : (ranges.map Slice.count).length = clients := by rw [List.length_map, h.all]
  have hne : ranges.map Slice.count ≠ [] := by
    rw [← List.length_pos_iff, hlength]
    exact hc
  have hcounts := counts_eq hne (List.pairwise_map.mpr hb.descends)
    (List.forall_mem_map.mpr fun slice hs => List.forall_mem_map.mpr (hb.even slice hs))
  rwa [hlength, h.sum_count hc] at hcounts

theorem Tiles.eq_slices_of_balanced (h : Tiles iterations clients ranges) (hc : 0 < clients)
    (hb : Balanced ranges) : ranges = slices iterations clients := by
  have hslices := tiles_slices iterations hc
  rw [h.eq_consecutive, h.counts hc hb, ← hslices.counts hc (balanced_slices iterations clients),
    ← hslices.eq_consecutive]

theorem Tiles.eq_slices_of_first (h : Tiles iterations clients ranges) (hc : 0 < clients)
    (hfirst : ∀ (k : Nat) (slice : Slice), ranges[k]? = some slice →
      slice.first = k * (iterations / clients) + min k (iterations % clients)) :
    ranges = slices iterations clients := by
  have hstop : ∀ (k : Nat) (slice : Slice), ranges[k]? = some slice →
      slice.stop = (k + 1) * (iterations / clients) + min (k + 1) (iterations % clients) := by
    intro k slice hk
    cases hnext : ranges[k + 1]? with
    | some next => rw [h.joined k slice next hk hnext, hfirst (k + 1) next hnext]
    | none =>
      have hlast : k + 1 = clients := by
        have hlt := (List.getElem?_eq_some_iff.mp hk).1
        have hge := List.getElem?_eq_none_iff.mp hnext
        rw [h.all] at hlt hge
        omega
      subst hlast
      rw [h.ends slice hk, whole_eq iterations hc]
  have hlength : ranges.length = (slices iterations clients).length := by
    rw [h.all, length_slices]
  refine List.ext_getElem hlength fun k hr hs => ?_
  have hrange := List.getElem?_eq_getElem hr
  have hslice := List.getElem?_eq_getElem hs
  apply Slice.eq_of_bounds
  · rw [hfirst k _ hrange, first_of_slices hslice]
  · rw [hstop k _ hrange, stop_of_slices hslice]

end Uniqueness

/-- The sum of two words of 64 bits, unless it is too great for a word. -/
def wordSum? (a b : UInt64) : Option UInt64 :=
  if a.toNat + b.toNat < UInt64.size then some (a + b) else none

theorem wordSum?_eq_some_iff {a b sum : UInt64} :
    wordSum? a b = some sum ↔ sum.toNat = a.toNat + b.toNat := by
  rw [wordSum?]
  split
  · rename_i hfits
    rw [Option.some.injEq, eq_comm, ← UInt64.toNat_inj, UInt64.toNat_add, Nat.mod_eq_of_lt hfits]
  · rename_i hwraps
    have hsum := sum.toNat_lt_size
    simp only [reduceCtorEq, false_iff]
    omega

theorem exists_wordSum? {a b : UInt64} {n : Nat} (h : a.toNat + b.toNat = n) (hn : n < UInt64.size) :
    ∃ sum, wordSum? a b = some sum ∧ sum.toNat = n := by
  refine ⟨UInt64.ofNat n, wordSum?_eq_some_iff.mpr ?_, UInt64.toNat_ofNat_of_lt' hn⟩
  rw [UInt64.toNat_ofNat_of_lt' hn, h]

/-- The loop that hands out the ranges, between two clients: whose turn it is, where the next range begins,
and the bounds of the ranges so far. -/
structure Handout where
  client : UInt64 := 0
  next : UInt64 := 0
  bounds : List (UInt64 × UInt64) := []

namespace Handout

/-- Hands out one range. Fails if a sum is too great for a word. -/
def turn? (iterations clients : UInt64) (loop : Handout) : Option Handout := do
  let share ← wordSum? (iterations / clients) (if loop.client < iterations % clients then 1 else 0)
  let stop ← wordSum? loop.next share
  let client ← wordSum? loop.client 1
  return ⟨client, stop, loop.bounds ++ [(loop.next, stop)]⟩

theorem client_of_turn? {iterations clients : UInt64} {loop after : Handout}
    (h : loop.turn? iterations clients = some after) :
    after.client.toNat = loop.client.toNat + 1 := by
  simp only [turn?, Option.bind_eq_bind, Option.bind_eq_some_iff] at h
  obtain ⟨share, -, stop, -, client, hclient, hafter⟩ := h
  cases hafter
  exact wordSum?_eq_some_iff.mp hclient

/-- Goes on until each client has a range. -/
def run? (iterations clients : UInt64) (loop : Handout) : Option Handout :=
  if _hclient : loop.client < clients then
    match _hturn : loop.turn? iterations clients with
    | none => none
    | some after => after.run? iterations clients
  else some loop
termination_by clients.toNat - loop.client.toNat
decreasing_by
  have hnext := client_of_turn? _hturn
  have hlt := UInt64.lt_iff_toNat_lt.mp _hclient
  omega

/-- The loop in front of a client: the bounds so far are those of the clients before it. -/
structure InFrontOf (iterations clients : UInt64) (k : Nat) (loop : Handout) : Prop where
  client : loop.client.toNat = k
  next : loop.next.toNat = k * (iterations.toNat / clients.toNat) +
    min k (iterations.toNat % clients.toNat)
  bounds : loop.bounds.map (Prod.map UInt64.toNat UInt64.toNat) =
    ((slices iterations.toNat clients.toNat).take k).map Slice.bounds

variable {iterations clients : UInt64} {loop : Handout}

theorem inFrontOf_start (iterations clients : UInt64) : InFrontOf iterations clients 0 {} where
  client := rfl
  next := by rw [Nat.zero_mul, Nat.zero_min]; rfl
  bounds := rfl

theorem InFrontOf.turn {k : Nat} (h : InFrontOf iterations clients k loop) (hk : k < clients.toNat) :
    ∃ after, loop.turn? iterations clients = some after ∧
      InFrontOf iterations clients (k + 1) after := by
  have hslice : (slices iterations.toNat clients.toNat)[k]? = some _ := getElem?_slices hk
  rw [← h.next] at hslice
  have hreach : loop.next.toNat + share iterations.toNat clients.toNat k ≤ iterations.toNat :=
    end_le_of_slices hslice
  have hbound := iterations.toNat_lt_size
  have hclients := clients.toNat_lt_size
  have hextra : (iterations / clients).toNat +
      (if loop.client < iterations % clients then 1 else 0 : UInt64).toNat =
        share iterations.toNat clients.toNat k := by
    simp only [share, UInt64.lt_iff_toNat_lt, UInt64.toNat_mod, h.client, UInt64.toNat_div]
    split <;> rfl
  have hone : loop.client.toNat + (1 : UInt64).toNat = k + 1 := congrArg (· + 1) h.client
  obtain ⟨share, hshare, hcount⟩ := exists_wordSum? hextra (by omega)
  obtain ⟨stop, hnext, hstop⟩ := exists_wordSum? (congrArg (loop.next.toNat + ·) hcount) (by omega)
  obtain ⟨client, hclient, hcounted⟩ := exists_wordSum? hone (by omega)
  refine ⟨⟨client, stop, loop.bounds ++ [(loop.next, stop)]⟩, ?_, hcounted,
    hstop.trans (stop_of_slices hslice), ?_⟩
  · simp only [turn?, hshare, hnext, hclient, Option.bind_eq_bind, Option.bind_some, Option.pure_def]
  · rw [List.map_append, h.bounds, List.take_add_one, hslice, List.map_append, List.map_singleton,
      Prod.map, hstop]
    rfl

theorem InFrontOf.run {k left : Nat} (h : InFrontOf iterations clients k loop)
    (hleft : k + left = clients.toNat) :
    ∃ ended, loop.run? iterations clients = some ended ∧
      InFrontOf iterations clients clients.toNat ended := by
  induction left generalizing k loop with
  | zero =>
    rw [Nat.add_zero] at hleft
    subst hleft
    have hover : ¬loop.client < clients := by
      rw [UInt64.lt_iff_toNat_lt, h.client]
      exact Nat.lt_irrefl _
    exact ⟨loop, by rw [run?, dif_neg hover], h⟩
  | succ left ih =>
    have hclient : loop.client < clients := by
      rw [UInt64.lt_iff_toNat_lt, h.client]
      omega
    obtain ⟨after, hturn, hafter⟩ := h.turn (by omega)
    obtain ⟨ended, hrun, hended⟩ := ih hafter (by omega)
    refine ⟨ended, ?_, hended⟩
    rw [run?, dif_pos hclient]
    split
    · rename_i hnone
      rw [hturn] at hnone
      cases hnone
    · rename_i other hother
      rw [hturn] at hother
      cases hother
      exact hrun

end Handout

/-- The iterations are split evenly and completely, and there is one way to do so: ranges that make up the run
are balanced exactly if each begins at its number times the quotient, and one further for each client in
front that gets one of the remaining iterations. The loop on words forms no sum that a word does not hold,
and hands out these ranges. -/
theorem splits_evenly {iterations clients : Nat} (hc : 0 < clients) :
    Tiles iterations clients (slices iterations clients) ∧
    Balanced (slices iterations clients) ∧
    (∀ ranges, Tiles iterations clients ranges →
      (Balanced ranges ↔ ∀ (k : Nat) (slice : Slice), ranges[k]? = some slice →
        slice.first = k * (iterations / clients) + min k (iterations % clients)) ∧
      (Balanced ranges ↔ ranges = slices iterations clients)) ∧
    ∀ total count : UInt64, total.toNat = iterations → count.toNat = clients →
      ∃ ended, Handout.run? total count {} = some ended ∧
        ended.bounds.map (Prod.map UInt64.toNat UInt64.toNat) =
          (slices iterations clients).map Slice.bounds := by
  have hbalanced := balanced_slices iterations clients
  refine ⟨tiles_slices iterations hc, hbalanced, fun ranges hr => ⟨⟨fun hb => ?_, fun hfirst => ?_⟩,
    hr.eq_slices_of_balanced hc, ?_⟩, ?_⟩
  · rw [hr.eq_slices_of_balanced hc hb]
    exact fun k slice => first_of_slices
  · rw [hr.eq_slices_of_first hc hfirst]
    exact hbalanced
  · rintro rfl
    exact hbalanced
  · rintro total count rfl rfl
    obtain ⟨ended, hrun, hended⟩ :=
      (Handout.inFrontOf_start total count).run (Nat.zero_add count.toNat)
    refine ⟨ended, hrun, ?_⟩
    rw [hended.bounds, List.take_of_length_le (length_slices _ _).le]

/-- Three clients share two iterations, so the last range is empty. -/
theorem splits_evenly_two_among_three :
    let ranges : List Slice := [⟨0, 1⟩, ⟨1, 1⟩, ⟨2, 0⟩]
    slices 2 3 = ranges ∧ Tiles 2 3 ranges ∧ Balanced ranges ∧
      ∃ ended, Handout.run? 2 3 {} = some ended ∧
        ended.bounds.map (Prod.map UInt64.toNat UInt64.toNat) = [(0, 1), (1, 2), (2, 2)] := by
  intro ranges
  obtain ⟨htiles, hbalanced, -, hwords⟩ := @splits_evenly 2 3 (by decide)
  exact ⟨rfl, htiles, hbalanced, hwords 2 3 rfl rfl⟩

end Driver

end RespLoad
