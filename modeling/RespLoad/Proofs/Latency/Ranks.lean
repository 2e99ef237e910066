import Mathlib.Tactic.Linarith
import RespLoad.Operation
import RespLoad.Proofs.Latency.Consistency
import RespLoad.Proofs.Number.Rounding

/-!
# Ranks computed with doubles

The ranks of the upper percentiles are computed with doubles that lie below 0.95 and 0.99. Where the exact rank
is a whole number, the product of the count and such a double lies below it, and its integer part is one less.
Rounding the product to a double makes up for this: what the double lacks is, as a share of the double, less
than half a unit in its last place, so what the product lacks is less than half a last place of the product.
No other product is lifted to a whole number, as long as half a last place does not reach over a hundredth.
-/
namespace RespLoad

namespace Binary64

/-- In units of 2 ^ -53, the significand is the double nearest to `numerator / denominator`. It lies below by
`shortfall / denominator`, and rounding a product with it makes up for what the product lacks. -/
structure LiesBelow (numerator denominator significand shortfall : Nat) : Prop where
  low : 2 ^ 52 ≤ significand
  high : significand < 2 ^ 53
  lacks : denominator * significand + shortfall = numerator * 2 ^ 53
  below : 0 < shortfall
  nearest : 2 * shortfall ≤ denominator
  madeUp : 2 * shortfall * 2 ^ 53 ≤ denominator * significand

theorem liesBelow_p95 : LiesBelow 95 100 0x1E666666666666 40 := by
  constructor <;> decide

theorem liesBelow_p99 : LiesBelow 99 100 0x1FAE147AE147AE 8 := by
  constructor <;> decide

-- The two significands are those of the doubles that the decimals read as.
example : ofFloat 0.95 = .finite false 0x1E666666666666 (-53) ∧
    ofFloat 0.99 = .finite false 0x1FAE147AE147AE (-53) := by decide +kernel

section Product

variable {numerator denominator significand shortfall count : Nat}

theorem LiesBelow.denominator_pos (h : LiesBelow numerator denominator significand shortfall) :
    0 < denominator := by
  have := h.below
  have := h.nearest
  omega

/-- What a product lacks of the exact one is less than half of its last place. -/
theorem LiesBelow.lacks_lt (h : LiesBelow numerator denominator significand shortfall)
    (hpos : 0 < count) :
    2 * (shortfall * count) < denominator * Rounding.lastPlace (significand * count) := by
  have hlow : 2 ^ 52 ≤ significand * count := h.low.trans (Nat.le_mul_of_pos_right _ hpos)
  have hless : 2 * (shortfall * count) * 2 ^ 53 <
      denominator * Rounding.lastPlace (significand * count) * 2 ^ 53 := by
    calc 2 * (shortfall * count) * 2 ^ 53
        = 2 * shortfall * 2 ^ 53 * count := by ring
      _ ≤ denominator * significand * count := Nat.mul_le_mul_right _ h.madeUp
      _ = denominator * (significand * count) := Nat.mul_assoc _ _ _
      _ < denominator * (2 ^ 53 * Rounding.lastPlace (significand * count)) :=
          Nat.mul_lt_mul_of_pos_left (Rounding.lastPlace_bounds hlow).2 h.denominator_pos
      _ = denominator * Rounding.lastPlace (significand * count) * 2 ^ 53 := by ring
  exact Nat.lt_of_mul_lt_mul_right hless

/-- The last place of a product is less than twice the count. -/
theorem LiesBelow.lastPlace_lt (h : LiesBelow numerator denominator significand shortfall)
    (hpos : 0 < count) : Rounding.lastPlace (significand * count) < 2 * count := by
  have hlow : 2 ^ 52 ≤ significand * count := h.low.trans (Nat.le_mul_of_pos_right _ hpos)
  have hless : significand * count < 2 ^ 53 * count := Nat.mul_lt_mul_of_pos_right h.high hpos
  have := (Rounding.lastPlace_bounds hlow).1
  omega

/-- The integer part of a rounded product is the integer part of the exact quotient. -/
theorem LiesBelow.toSignificand_div (h : LiesBelow numerator denominator significand shortfall)
    (hpos : 0 < count) (hfew : denominator * count ≤ 2 ^ 52) :
    Rounding.toSignificand (significand * count) / 2 ^ 53 = numerator * count / denominator := by
  have hlacks := h.lacks_lt hpos
  have hplace := h.lastPlace_lt hpos
  have hden := h.denominator_pos
  have hcount : count ≤ 2 ^ 52 := (Nat.le_mul_of_pos_left _ hden).trans hfew
  have hproduct : denominator * (significand * count) + shortfall * count =
      numerator * count * 2 ^ 53 := by
    have := congrArg (· * count) h.lacks
    linarith
  have hbelow := Nat.mul_le_mul_right (2 ^ 53) (Nat.div_mul_le_self (numerator * count) denominator)
  have habove : (numerator * count + 1) * 2 ^ 53 ≤
      (numerator * count / denominator * denominator + denominator) * 2 ^ 53 :=
    Nat.mul_le_mul_right _ (Nat.lt_div_mul_add hden)
  have hround := Rounding.toSignificand_le (significand * count)
  generalize numerator * count / denominator = quotient at *
  generalize significand * count = product at *
  apply Nat.div_eq_of_lt_le
  · -- A whole number is less than half a last place above the product if it is not above the exact one.
    refine Rounding.le_toSignificand (Rounding.lastPlace_dvd (by omega)) ?_
    refine Nat.lt_of_mul_lt_mul_left (a := denominator) ?_
    linarith
  · -- The next one is a whole unit above the exact product, taken `denominator` times.
    have hhalf : denominator * Rounding.lastPlace product < 2 * 2 ^ 53 := by
      have := Nat.mul_lt_mul_of_pos_left hplace hden
      linarith
    refine Nat.lt_of_mul_lt_mul_left (a := 2 * denominator) ?_
    have := Nat.mul_le_mul_left denominator hround
    have := Nat.zero_le (shortfall * count)
    linarith

/-- The rank computed with such a double is the exact one, unless the count is huge. -/
theorem LiesBelow.percentileIndex_eq (h : LiesBelow numerator denominator significand shortfall)
    (hfew : denominator * count ≤ 2 ^ 52) :
    (finite false significand (-53)).percentileIndex count =
      min (numerator * count / denominator) (count - 1) := by
  rcases Nat.eq_zero_or_pos count with rfl | hpos
  · exact (Nat.min_zero _).symm
  have hcount : count < 2 ^ 53 := by
    have := Nat.le_mul_of_pos_left count h.denominator_pos
    omega
  have hfloor : Rounding.floor (Rounding.toSignificand (significand * count)) (-53) =
      numerator * count / denominator :=
    (Nat.shiftRight_eq_div_pow _ 53).trans (h.toSignificand_div hpos hfew)
  rw [percentileIndex, if_neg (Nat.ne_of_gt hpos)]
  simp only [Rounding.toSignificand_of_lt hcount, hfloor]

end Product

end Binary64

/-- The ranks of the upper percentiles are those of exact arithmetic, for every count that a run can have. -/
theorem PercentileRanks.binary64_exact {count : Nat} (h : count ≤ Operation.maxIterations) :
    binary64.p95 count = min (95 * count / 100) (count - 1) ∧
      binary64.p99 count = min (99 * count / 100) (count - 1) := by
  have hfew : 100 * count ≤ 2 ^ 52 := by
    have hlimit : Operation.maxIterations = 100000000 := rfl
    omega
  constructor
  · exact Binary64.liesBelow_p95.percentileIndex_eq hfew
  · exact Binary64.liesBelow_p99.percentileIndex_eq hfew

/-- Twenty times seventeen, where the unrounded product with 0.95 is below 323. -/
theorem PercentileRanks.binary64_exact_unrounded_below :
    340 ≤ Operation.maxIterations ∧ binary64.p95 340 = 323 ∧ binary64.p99 340 = 336 ∧
      0x1E666666666666 * 340 / 2 ^ 53 = 322 := by
  have hlimit : 340 ≤ Operation.maxIterations := by decide
  obtain ⟨h95, h99⟩ := binary64_exact hlimit
  exact ⟨hlimit, h95, h99, by decide⟩

end RespLoad
