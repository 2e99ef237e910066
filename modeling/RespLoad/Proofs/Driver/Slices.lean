import Mathlib.Tactic.Ring
import RespLoad.Proofs.Wire.RoundTrip
import RespLoad.Proofs.Driver.Client
import RespLoad.Driver.Run

/-!
# Ranges of iterations

Where the range of each client begins and how long it is, and what follows for the commands of a
range: all of them fit the wire, because no index reaches the limit on iterations.
-/
namespace RespLoad

namespace Driver

/-- The ranges of a driver's clients. -/
def ranges (iterations : Nat) : Driver → List Slice
  | .sequential => [⟨0, iterations⟩]
  | .concurrent others => slices iterations (others + 1)

theorem getElem?_consecutive (first : Nat) (counts : List Nat) (k : Nat) :
    (consecutive first counts)[k]? =
      counts[k]?.map fun count => ⟨first + (counts.take k).sum, count⟩ := by
  induction counts generalizing first k with
  | nil => rfl
  | cons count more ih =>
    cases k with
    | zero => rfl
    | succ k =>
      rw [consecutive, List.getElem?_cons_succ, List.getElem?_cons_succ, ih, List.take_succ_cons,
        List.sum_cons]
      simp only [Nat.add_assoc]

/-- The shares of the first clients together: an even part for each, and one more for each that gets
one of the remaining iterations. -/
theorem sum_share (iterations clients k : Nat) :
    ((List.range k).map (share iterations clients)).sum =
      k * (iterations / clients) + min k (iterations % clients) := by
  induction k with
  | zero => simp
  | succ k ih =>
    rw [List.range_succ, List.map_append, List.sum_append, ih, List.map_singleton,
      List.sum_singleton, share, Nat.succ_mul]
    split <;> omega

theorem getElem?_slices {iterations clients k : Nat} (h : k < clients) :
    (slices iterations clients)[k]? =
      some ⟨k * (iterations / clients) + min k (iterations % clients),
        share iterations clients k⟩ := by
  rw [slices, getElem?_consecutive, List.getElem?_map, List.getElem?_range h, ← List.map_take,
    List.take_range, Nat.min_eq_left (Nat.le_of_lt h), sum_share, Nat.zero_add]
  rfl

theorem length_consecutive (first : Nat) (counts : List Nat) :
    (consecutive first counts).length = counts.length := by
  induction counts generalizing first with
  | nil => rfl
  | cons count more ih => rw [consecutive, List.length_cons, List.length_cons, ih]

theorem length_slices (iterations clients : Nat) : (slices iterations clients).length = clients := by
  rw [slices, length_consecutive, List.length_map, List.length_range]

theorem map_count_consecutive (first : Nat) (counts : List Nat) :
    (consecutive first counts).map Slice.count = counts := by
  induction counts generalizing first with
  | nil => rfl
  | cons count more ih => rw [consecutive, List.map_cons, ih]

/-- The ranges together are as long as the run. -/
theorem sum_count_slices (iterations : Nat) {clients : Nat} (h : 0 < clients) :
    ((slices iterations clients).map Slice.count).sum = iterations := by
  have hm : iterations % clients < clients := Nat.mod_lt _ h
  rw [slices, map_count_consecutive, sum_share, Nat.min_eq_right (Nat.le_of_lt hm)]
  exact Nat.div_add_mod iterations clients

/-- No range goes beyond the iterations that are to be run. -/
theorem end_le_of_slices {iterations clients k : Nat} {slice : Slice}
    (h : (slices iterations clients)[k]? = some slice) :
    slice.first + slice.count ≤ iterations := by
  have hk : k < clients := by
    have hl := (List.getElem?_eq_some_iff.mp h).1
    rwa [length_slices] at hl
  rw [getElem?_slices hk, Option.some.injEq] at h
  have hm : iterations % clients < clients := Nat.mod_lt _ (by omega)
  have hd := Nat.div_add_mod iterations clients
  have hq : (k + 1) * (iterations / clients) ≤ clients * (iterations / clients) :=
    Nat.mul_le_mul_right _ hk
  rw [Nat.succ_mul] at hq
  rw [← h]
  simp only [share]
  split <;> omega

end Driver

namespace Operation

/-- An index below the limit has eight digits at most, so every argument is short. -/
theorem fits_command (operation : Operation) {i : Nat} (h : i < maxIterations) :
    (operation.command i).Fits := by
  have hi : (Decimal.ofNat i).length ≤ 8 := Decimal.length_ofNat_le h
  have hm : (Decimal.ofNat (i % keyCycle)).length ≤ 8 :=
    Decimal.length_ofNat_le (Nat.lt_of_le_of_lt (Nat.mod_le _ _) h)
  have hk : (utf8 "key").length = 3 := by decide
  have hv : (utf8 "value").length = 5 := by decide
  have hb : 13 ≤ Decimal.maxInt32 := by decide
  suffices hs : (operation.command i).length ≤ 13 ∧
      ∀ argument ∈ operation.command i, argument.length ≤ 13 from
    ⟨hs.1.trans hb, fun argument ha => (hs.2 argument ha).trans hb⟩
  cases operation with
  | ping => exact ⟨(by decide : 1 ≤ 13), List.forall_mem_singleton.mpr (by decide)⟩
  | set =>
    refine ⟨(by decide : 3 ≤ 13), List.forall_mem_cons.mpr ⟨by decide, ?_⟩⟩
    refine List.forall_mem_cons.mpr ⟨?_, List.forall_mem_singleton.mpr ?_⟩
    · rw [List.length_append]; omega
    · rw [List.length_append]; omega
  | get =>
    refine ⟨(by decide : 2 ≤ 13), List.forall_mem_cons.mpr ⟨by decide, ?_⟩⟩
    exact List.forall_mem_singleton.mpr (by omega)
  | del =>
    refine ⟨(by decide : 2 ≤ 13), List.forall_mem_cons.mpr ⟨by decide, ?_⟩⟩
    exact List.forall_mem_singleton.mpr (by omega)

theorem fits_commands (operation : Operation) {slice : Slice}
    (h : slice.first + slice.count ≤ maxIterations) :
    ∀ command ∈ operation.commands slice, command.Fits := by
  intro command hc
  obtain ⟨i, hi, rfl⟩ := List.mem_map.mp hc
  rw [List.mem_range'_1] at hi
  exact operation.fits_command (by omega)

end Operation

end RespLoad
