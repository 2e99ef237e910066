import Mathlib.Algebra.Order.BigOperators.Group.List
import Mathlib.Algebra.Order.Field.Basic
import Mathlib.Algebra.Order.Field.Rat
import Mathlib.Tactic.Linarith
import RespLoad.Proofs.Latency.OrderStatistics

/-!
# Consistency of the statistics

How the statistics of the same samples compare with one another when the arithmetic is exact. Median and
percentiles come in the order of their places in the ascending list, where half the sum of the two middle
elements lies between these, and the mean lies between the least and the greatest sample. What is asked of
the ranks is only that they are in the list and not in front of its middle, which also holds of the shortest
lists.
-/
namespace RespLoad

/-- The ranks of 95 and 99 hundredths in whole numbers. -/
def PercentileRanks.exact : PercentileRanks where
  p95 count := min (95 * count / 100) (count - 1)
  p99 count := min (99 * count / 100) (count - 1)

/-- In a list of this length, the ranks come in order from the middle on. -/
structure PercentileRanks.Ascend (ranks : PercentileRanks) (count : Nat) : Prop where
  middle : count / 2 ≤ ranks.p95 count
  upward : ranks.p95 count ≤ ranks.p99 count
  last : ranks.p99 count < count

theorem PercentileRanks.ascend_exact {count : Nat} (h : 0 < count) : exact.Ascend count where
  middle := by simp only [exact]; omega
  upward := by simp only [exact]; omega
  last := by simp only [exact]; omega

namespace Latency

variable {α : Type} [LinearOrder α] {samples sorted : List α}

theorem totallyOrdered (samples : List α) : TotallyOrdered samples where
  total := fun a _ b _ => le_total a b
  trans := fun _ _ _ _ _ _ => le_trans
  antisymm := fun _ _ _ _ => le_antisymm

variable [Field α] [IsStrictOrderedRing α]

/-- Half the sum of two numbers lies between them. -/
theorem half_sum_between {a b : α} (h : a ≤ b) :
    a ≤ (a + b) / ((2 : Nat) : α) ∧ (a + b) / ((2 : Nat) : α) ≤ b := by
  rw [Nat.cast_ofNat]
  constructor <;> linarith

/-- The median lies between the least element and the one in the middle. -/
theorem median_between (h : Arranges sorted samples) (hne : sorted ≠ [])
    (hmiddle : sorted.length / 2 < sorted.length) :
    sorted.head hne ≤ median sorted ∧ median sorted ≤ sorted[sorted.length / 2] := by
  have ho := totallyOrdered samples
  have hle : ∀ {i k : Nat} (hik : i ≤ k) (hk : k < sorted.length), sorted[i] ≤ sorted[k] :=
    fun hik hk => h.getElem_le ho hik hk
  rw [List.head_eq_getElem]
  rcases Nat.mod_two_eq_zero_or_one sorted.length with heven | hodd
  · obtain ⟨a, b, ha, hb, hmedian⟩ := median_of_even hne heven
    obtain ⟨hlow, rfl⟩ := List.getElem?_eq_some_iff.mp ha
    obtain ⟨hhigh, rfl⟩ := List.getElem?_eq_some_iff.mp hb
    obtain ⟨hbelow, habove⟩ := half_sum_between (hle (Nat.sub_le _ 1) hhigh)
    rw [hmedian]
    exact ⟨(hle (Nat.zero_le _) hlow).trans hbelow, habove⟩
  · obtain ⟨_, hmedian⟩ := List.getElem?_eq_some_iff.mp (median_of_odd hodd)
    rw [← hmedian]
    exact ⟨hle (Nat.zero_le _) hmiddle, le_rfl⟩

/-- The mean lies between bounds of the elements. -/
theorem mean_between (hne : sorted ≠ []) {lo hi : α} (hlo : ∀ a ∈ sorted, lo ≤ a)
    (hhi : ∀ a ∈ sorted, a ≤ hi) : lo ≤ mean sorted ∧ mean sorted ≤ hi := by
  have hpos : (0 : α) < sorted.length := Nat.cast_pos.mpr (List.length_pos_iff.mpr hne)
  have hleast := List.card_nsmul_le_sum sorted lo hlo
  have hgreatest := List.sum_le_card_nsmul sorted hi hhi
  rw [nsmul_eq_mul, mul_comm] at hleast hgreatest
  rw [mean, ← List.sum_eq_foldl, le_div_iff₀ hpos, div_le_iff₀ hpos]
  exact ⟨hleast, hgreatest⟩

/-- Ranks that ascend from the middle on make the statistics ascend. -/
theorem stats_ascend {ranks : PercentileRanks} (hne : samples ≠ [])
    (hr : ranks.Ascend samples.length) :
    let taken := stats ranks samples
    (taken.min ≤ taken.p50 ∧ taken.p50 ≤ taken.p95 ∧ taken.p95 ≤ taken.p99 ∧
      taken.p99 ≤ taken.max) ∧ taken.min ≤ taken.mean ∧ taken.mean ≤ taken.max := by
  intro taken
  have ho := totallyOrdered samples
  obtain ⟨sorted, hsorted⟩ : ∃ sorted, Arranges sorted samples := ⟨_, arranges_mergeSort ho⟩
  rw [← hsorted.perm.length_eq] at hr
  have hfilled : sorted ≠ [] := fun hnil => hne (List.nil_perm.mp (hnil ▸ hsorted.perm))
  have h95 := hr.upward.trans_lt hr.last
  have htaken : taken = statsOfSorted ranks sorted := hsorted.stats_eq _ ho
  rw [statsOfSorted_eq _ hfilled, atRank_eq h95, atRank_eq hr.last] at htaken
  obtain ⟨hlow, hhigh⟩ := median_between hsorted hfilled (hr.middle.trans_lt h95)
  have hmember : ∀ a ∈ sorted, a ∈ samples := fun a => hsorted.perm.mem_iff.mp
  rw [htaken]
  refine ⟨⟨hlow, hhigh.trans (hsorted.getElem_le ho hr.middle h95),
    hsorted.getElem_le ho hr.upward hr.last, ?_⟩, mean_between hfilled ?_ ?_⟩
  · exact hsorted.le_getLast ho hfilled (hmember _ (List.getElem_mem _))
  · exact fun a ha => hsorted.head_le ho hfilled (hmember a ha)
  · exact fun a ha => hsorted.le_getLast ho hfilled (hmember a ha)

/-- On exact numbers the statistics of any samples are consistent. -/
theorem stats_consistent {samples : List ℚ} (hne : samples ≠ []) :
    let taken := stats PercentileRanks.exact samples
    (taken.min ≤ taken.p50 ∧ taken.p50 ≤ taken.p95 ∧ taken.p95 ≤ taken.p99 ∧
      taken.p99 ≤ taken.max) ∧ taken.min ≤ taken.mean ∧ taken.mean ≤ taken.max :=
  stats_ascend hne (PercentileRanks.ascend_exact (List.length_pos_iff.mpr hne))

theorem stats_consistent_two_samples :
    let taken := stats PercentileRanks.exact [(3 : ℚ), 1]
    [(3 : ℚ), 1] ≠ [] ∧
      (taken.min = 1 ∧ taken.p50 = 2 ∧ taken.p95 = 3 ∧ taken.p99 = 3 ∧ taken.max = 3) ∧
      taken.p50 ≤ taken.p95 ∧ taken.min ≤ taken.mean := by
  intro taken
  have hne : [(3 : ℚ), 1] ≠ [] := List.cons_ne_nil _ _
  have hsorted : Arranges [1, 3] [(3 : ℚ), 1] := ⟨by decide, by decide⟩
  have htaken : taken = _ := hsorted.stats_eq _ (totallyOrdered _)
  obtain ⟨⟨-, h95, -⟩, hmean, -⟩ := stats_consistent hne
  refine ⟨hne, ?_, h95, hmean⟩
  rw [htaken]
  decide +kernel

end Latency

end RespLoad
