import RespLoad.Latency
import RespLoad.Proofs.Number.DoubleOrder

/-!
# Order statistics

What the statistics of samples say about the samples, for any carrier on which the comparison of the samples
at hand is a total order. On doubles it is one if they are all numbers and zero has one sign. An ascending
arrangement is then unique, and all the statistics are taken from it, so the order of the samples does not
matter for any of them. Least and greatest sample and the percentiles are told by counting in the samples, the
median by its place in the arrangement. Nothing is known of the arithmetic of the carrier.
-/
namespace RespLoad

theorem Binary64.percentileIndex_lt (fraction : Binary64) {count : Nat} (h : 0 < count) :
    fraction.percentileIndex count < count := by
  unfold percentileIndex
  rw [if_neg (Nat.pos_iff_ne_zero.mp h)]
  cases fraction with
  | nan negative => exact h
  | infinite negative => cases negative <;> dsimp only <;> omega
  | finite negative significand exponent => cases negative <;> dsimp only <;> omega

theorem PercentileRanks.binary64_lt {count : Nat} (h : 0 < count) :
    binary64.p95 count < count ∧ binary64.p99 count < count :=
  ⟨(Binary64.ofBits 0x3FEE666666666666).percentileIndex_lt h,
    (Binary64.ofBits 0x3FEFAE147AE147AE).percentileIndex_lt h⟩

namespace Latency

/-- The comparison is a total order on the samples. -/
structure TotallyOrdered {α : Type} [LE α] (samples : List α) : Prop where
  total : ∀ a ∈ samples, ∀ b ∈ samples, a ≤ b ∨ b ≤ a
  trans : ∀ a ∈ samples, ∀ b ∈ samples, ∀ c ∈ samples, a ≤ b → b ≤ c → a ≤ c
  antisymm : ∀ a ∈ samples, ∀ b ∈ samples, a ≤ b → b ≤ a → a = b

/-- The samples in ascending order. -/
structure Arranges {α : Type} [LE α] (sorted samples : List α) : Prop where
  perm : sorted.Perm samples
  ascends : sorted.Pairwise (· ≤ ·)

/-- The value stands at this rank, counted from zero, when the samples ascend. Others may be equal to it. -/
structure HasRank {α : Type} [LE α] [DecidableLE α] (samples : List α) (rank : Nat) (value : α) :
    Prop where
  lt : rank < samples.length
  mem : value ∈ samples
  upTo : rank + 1 ≤ samples.countP (· ≤ value)
  onward : samples.length - rank ≤ samples.countP (value ≤ ·)

theorem TotallyOrdered.refl {α : Type} [LE α] {samples : List α} (h : TotallyOrdered samples) {a : α}
    (ha : a ∈ samples) : a ≤ a :=
  (h.total a ha a ha).elim id id

/-- Doubles are in total order exactly if all of them are numbers and zero does not come with both signs. -/
theorem totallyOrdered_doubles {samples : List Float} :
    TotallyOrdered samples ↔
      (∀ a ∈ samples, a.isNaN = false) ∧ ¬((0 : Float) ∈ samples ∧ (-0 : Float) ∈ samples) := by
  constructor
  · refine fun h => ⟨fun a ha => ?_, fun ⟨hplus, hminus⟩ => ?_⟩
    · exact Bool.eq_false_of_not_eq_true fun hnan => Double.not_le_self_of_isNaN hnan (h.refl ha)
    · exact absurd (h.antisymm _ hplus _ hminus (by decide) (by decide)) (by decide)
  · rintro ⟨hnumber, hzeros⟩
    have hplace : ∀ a ∈ samples, ∀ b ∈ samples,
        (a ≤ b ↔ Double.place a.toModel.unpack ≤ Double.place b.toModel.unpack) :=
      fun a ha b hb => Double.le_iff_place_le (hnumber a ha) (hnumber b hb)
    refine ⟨fun a ha b hb => ?_, fun a ha b hb c hc => ?_, fun a ha b hb hab hba => ?_⟩
    · rw [hplace a ha b hb, hplace b hb a ha]
      exact le_total _ _
    · rw [hplace a ha b hb, hplace b hb c hc, hplace a ha c hc]
      exact le_trans
    · rw [hplace a ha b hb] at hab
      rw [hplace b hb a ha] at hba
      have heq := Double.eq_or_zeros_of_place_eq (hnumber a ha) (le_antisymm hab hba)
      rcases heq with heq | ⟨rfl, rfl⟩ | ⟨rfl, rfl⟩
      · exact heq
      · exact absurd ⟨ha, hb⟩ hzeros
      · exact absurd ⟨hb, ha⟩ hzeros

section Arrangement

variable {α : Type} [LE α] {samples sorted : List α}

theorem TotallyOrdered.of_perm {others : List α} (h : TotallyOrdered samples)
    (hp : others.Perm samples) : TotallyOrdered others where
  total := fun a ha b hb => h.total a (hp.mem_iff.mp ha) b (hp.mem_iff.mp hb)
  trans := fun a ha b hb c hc =>
    h.trans a (hp.mem_iff.mp ha) b (hp.mem_iff.mp hb) c (hp.mem_iff.mp hc)
  antisymm := fun a ha b hb => h.antisymm a (hp.mem_iff.mp ha) b (hp.mem_iff.mp hb)

/-- There is only one ascending arrangement. -/
theorem Arranges.unique {other : List α} (ho : TotallyOrdered samples) (h : Arranges sorted samples)
    (h' : Arranges other samples) : sorted = other :=
  List.Perm.eq_of_pairwise
    (fun a b ha hb => ho.antisymm a (h.perm.mem_iff.mp ha) b (h'.perm.mem_iff.mp hb))
    h.ascends h'.ascends (h.perm.trans h'.perm.symm)

theorem Arranges.getElem_le (ho : TotallyOrdered samples) (h : Arranges sorted samples) {i k : Nat}
    (hik : i ≤ k) (hk : k < sorted.length) : sorted[i] ≤ sorted[k] := by
  rcases Nat.lt_or_eq_of_le hik with hlt | rfl
  · exact List.pairwise_iff_getElem.mp h.ascends i k _ hk hlt
  · exact ho.refl (h.perm.mem_iff.mp (List.getElem_mem hk))

theorem Arranges.head_le (ho : TotallyOrdered samples) (h : Arranges sorted samples)
    (hne : sorted ≠ []) {a : α} (ha : a ∈ samples) : sorted.head hne ≤ a := by
  obtain ⟨i, hi, rfl⟩ := List.mem_iff_getElem.mp (h.perm.mem_iff.mpr ha)
  rw [List.head_eq_getElem]
  exact h.getElem_le ho (Nat.zero_le i) hi

theorem Arranges.le_getLast (ho : TotallyOrdered samples) (h : Arranges sorted samples)
    (hne : sorted ≠ []) {a : α} (ha : a ∈ samples) : a ≤ sorted.getLast hne := by
  obtain ⟨i, hi, rfl⟩ := List.mem_iff_getElem.mp (h.perm.mem_iff.mpr ha)
  rw [List.getLast_eq_getElem]
  exact h.getElem_le ho (Nat.le_sub_one_of_lt hi) _

variable [DecidableLE α]

/-- Sorting arranges the samples, whatever the comparison is on other elements of the carrier. -/
theorem arranges_mergeSort (h : TotallyOrdered samples) :
    Arranges (samples.mergeSort fun a b => decide (a ≤ b)) samples := by
  refine ⟨List.mergeSort_perm _ _, ?_⟩
  have hattached := List.map_mergeSort (f := Subtype.val) (l := samples.attach)
    (r := fun a b => decide (a.1 ≤ b.1)) (s := fun a b => decide (a ≤ b)) fun _ _ _ _ => rfl
  rw [List.attach_map_subtype_val] at hattached
  rw [← hattached, List.pairwise_map]
  have htrans : ∀ a b c : {x // x ∈ samples}, decide (a.1 ≤ b.1) → decide (b.1 ≤ c.1) →
      decide (a.1 ≤ c.1) := by
    simp only [decide_eq_true_eq]
    exact fun a b c => h.trans a a.2 b b.2 c c.2
  have htotal : ∀ a b : {x // x ∈ samples}, decide (a.1 ≤ b.1) || decide (b.1 ≤ a.1) := by
    simp only [Bool.or_eq_true, decide_eq_true_eq]
    exact fun a b => h.total a a.2 b b.2
  exact (List.pairwise_mergeSort htrans htotal samples.attach).imp of_decide_eq_true

/-- Up to a place the arrangement holds what is not greater, and from there on what is not less. -/
theorem Arranges.hasRank (ho : TotallyOrdered samples) (h : Arranges sorted samples) {k : Nat}
    (hk : k < sorted.length) : HasRank samples k sorted[k] where
  lt := h.perm.length_eq ▸ hk
  mem := h.perm.mem_iff.mp (List.getElem_mem hk)
  upTo := by
    have hall : (sorted.take (k + 1)).countP (· ≤ sorted[k]) = (sorted.take (k + 1)).length := by
      refine List.countP_eq_length.mpr fun a ha => decide_eq_true ?_
      obtain ⟨i, hi, rfl⟩ := List.mem_take_iff_getElem.mp ha
      exact h.getElem_le ho (by omega) hk
    have hpart := (List.take_sublist (k + 1) sorted).countP_le (p := (· ≤ sorted[k]))
    rw [hall, List.length_take, h.perm.countP_eq] at hpart
    omega
  onward := by
    have hall : (sorted.drop k).countP (sorted[k] ≤ ·) = (sorted.drop k).length := by
      refine List.countP_eq_length.mpr fun a ha => decide_eq_true ?_
      obtain ⟨i, hi, rfl⟩ := List.mem_drop_iff_getElem.mp ha
      exact h.getElem_le ho (by omega) (by omega)
    have hpart := (List.drop_sublist k sorted).countP_le (p := (sorted[k] ≤ ·))
    rwa [hall, List.length_drop, h.perm.countP_eq, h.perm.length_eq] at hpart

end Arrangement

section Statistics

variable {α : Type} [Zero α] {sorted : List α}

theorem atRank_eq {rank : Nat → Nat} (h : rank sorted.length < sorted.length) :
    atRank rank sorted = sorted[rank sorted.length] := by
  rw [atRank, List.getElem?_eq_getElem h, Option.getD_some]

variable [Add α] [Div α] [NatCast α]

theorem median_of_odd (h : sorted.length % 2 = 1) :
    sorted[sorted.length / 2]? = some (median sorted) := by
  have hmiddle : sorted.length / 2 < sorted.length := by omega
  have hne : ¬sorted.isEmpty = true := by
    rw [List.isEmpty_iff_length_eq_zero]
    omega
  unfold median
  rw [if_neg hne, if_pos h, List.getElem?_eq_getElem hmiddle, Option.getD_some]

theorem median_of_even (hne : sorted ≠ []) (h : sorted.length % 2 = 0) : ∃ a b,
    sorted[sorted.length / 2 - 1]? = some a ∧ sorted[sorted.length / 2]? = some b ∧
      median sorted = (a + b) / ((2 : Nat) : α) := by
  have hpos := List.length_pos_iff.mpr hne
  have hlow : sorted.length / 2 - 1 < sorted.length := by omega
  have hhigh : sorted.length / 2 < sorted.length := by omega
  refine ⟨_, _, List.getElem?_eq_getElem hlow, List.getElem?_eq_getElem hhigh, ?_⟩
  unfold median
  rw [if_neg (mt List.isEmpty_iff.mp hne), if_neg (by omega), List.getElem?_eq_getElem hlow,
    List.getElem?_eq_getElem hhigh, Option.getD_some, Option.getD_some]

theorem statsOfSorted_eq (ranks : PercentileRanks) (hne : sorted ≠ []) :
    statsOfSorted ranks sorted =
      { mean := mean sorted
        p50 := median sorted
        p95 := atRank ranks.p95 sorted
        p99 := atRank ranks.p99 sorted
        min := sorted.head hne
        max := sorted.getLast hne } := by
  rw [statsOfSorted, List.head?_eq_some_head hne, List.getLast?_eq_some_getLast hne]

variable [LE α] [DecidableLE α] {samples : List α}

/-- The statistics can be taken from any ascending arrangement. -/
theorem Arranges.stats_eq (ranks : PercentileRanks) (ho : TotallyOrdered samples)
    (h : Arranges sorted samples) : stats ranks samples = statsOfSorted ranks sorted := by
  rw [stats, (arranges_mergeSort ho).unique ho h]

theorem TotallyOrdered.stats_eq_of_perm (ranks : PercentileRanks) (ho : TotallyOrdered samples)
    {others : List α} (hp : others.Perm samples) : stats ranks others = stats ranks samples := by
  have hsorted := arranges_mergeSort ho
  have hothers : Arranges _ others := ⟨hsorted.perm.trans hp.symm, hsorted.ascends⟩
  rw [hothers.stats_eq ranks (ho.of_perm hp), hsorted.stats_eq ranks ho]

/-- The statistics of samples are order statistics, and the order in which the samples were taken does not
matter for any of them, the mean included. -/
theorem stats_order_statistics (ho : TotallyOrdered samples) (hne : samples ≠ []) :
    let taken := stats PercentileRanks.binary64 samples
    let count := samples.length
    (taken.min ∈ samples ∧ ∀ a ∈ samples, taken.min ≤ a) ∧
    (taken.max ∈ samples ∧ ∀ a ∈ samples, a ≤ taken.max) ∧
    HasRank samples (PercentileRanks.binary64.p95 count) taken.p95 ∧
    HasRank samples (PercentileRanks.binary64.p99 count) taken.p99 ∧
    (∃ sorted, Arranges sorted samples) ∧
    (∀ sorted, Arranges sorted samples →
      (count % 2 = 1 → sorted[count / 2]? = some taken.p50) ∧
      (count % 2 = 0 → ∃ a b, sorted[count / 2 - 1]? = some a ∧ sorted[count / 2]? = some b ∧
        taken.p50 = (a + b) / ((2 : Nat) : α))) ∧
    ∀ others, others.Perm samples → stats PercentileRanks.binary64 others = taken := by
  intro taken count
  obtain ⟨sorted, hsorted⟩ : ∃ sorted, Arranges sorted samples := ⟨_, arranges_mergeSort ho⟩
  have hlength : sorted.length = count := hsorted.perm.length_eq
  have hpos : 0 < sorted.length := hlength ▸ List.length_pos_iff.mpr hne
  have hfilled : sorted ≠ [] := List.length_pos_iff.mp hpos
  have htaken : taken = statsOfSorted PercentileRanks.binary64 sorted := hsorted.stats_eq _ ho
  rw [statsOfSorted_eq _ hfilled] at htaken
  obtain ⟨h95, h99⟩ := PercentileRanks.binary64_lt hpos
  rw [htaken, atRank_eq h95, atRank_eq h99, ← hlength]
  refine ⟨⟨hsorted.perm.mem_iff.mp (List.head_mem hfilled), fun a => hsorted.head_le ho hfilled⟩,
    ⟨hsorted.perm.mem_iff.mp (List.getLast_mem hfilled), fun a => hsorted.le_getLast ho hfilled⟩,
    hsorted.hasRank ho h95, hsorted.hasRank ho h99, ⟨sorted, hsorted⟩, fun other hother => ?_,
    fun others hp => ?_⟩
  · rw [hother.unique ho hsorted]
    exact ⟨median_of_odd, median_of_even hfilled⟩
  · rw [ho.stats_eq_of_perm _ hp, ← atRank_eq h95, ← atRank_eq h99]
    exact htaken

end Statistics

theorem stats_order_statistics_four_samples :
    let samples : List Float := [3.0, 1.0, 2.0, 1.0]
    let taken := stats PercentileRanks.binary64 samples
    TotallyOrdered samples ∧ samples ≠ [] ∧ taken.min ≤ 1.0 ∧ 3.0 ≤ taken.max ∧
      HasRank samples 3 taken.p95 ∧ taken.p50 = 1.5 ∧
      stats PercentileRanks.binary64 [1.0, 1.0, 2.0, 3.0] = taken := by
  intro samples taken
  have ho : TotallyOrdered samples :=
    totallyOrdered_doubles.mpr
      ⟨by decide, by simp only [samples, List.mem_cons, List.not_mem_nil]; decide⟩
  have hne : samples ≠ [] := List.cons_ne_nil _ _
  have hsorted : Arranges [1.0, 1.0, 2.0, 3.0] samples := ⟨by decide, by decide⟩
  have hrank : PercentileRanks.binary64.p95 samples.length = 3 := by decide +kernel
  have hhalf : ((1.0 : Float) + 2.0) / ((2 : Nat) : Float) = 1.5 := by decide +kernel
  obtain ⟨⟨-, hmin⟩, ⟨-, hmax⟩, h95, -, -, hmedian, hany⟩ := stats_order_statistics ho hne
  obtain ⟨a, b, ha, hb, hp50⟩ := (hmedian _ hsorted).2 (by decide)
  simp only [samples, List.length_cons, List.length_nil, Nat.reduceAdd, Nat.reduceDiv, Nat.reduceSub,
    List.getElem?_cons_succ, List.getElem?_cons_zero, Option.some.injEq] at ha hb
  subst ha hb
  exact ⟨ho, hne, hmin 1.0 (by simp [samples]), hmax 3.0 (by simp [samples]), hrank ▸ h95,
    hp50.trans hhalf, hany _ hsorted.perm⟩

end Latency

end RespLoad
