import Mathlib.Algebra.Group.Nat.Defs
import RespLoad.Number.Rounding

/-!
# Nearest integers and nearest doubles

A quotient is rounded to an integer nearest to it, and the tie decides between two. A number is rounded to a
double in the same way, in units of the last place that a significand of its size leaves: the result is near
to it, keeps its order and is the number itself where the significand has the room.
-/
namespace RespLoad.Rounding

/-- The integer is nearest to the quotient. A half is at both its sides and goes as the tie says. -/
structure IsNearest (tie : Tie) (numerator denominator rounded : Nat) : Prop where
  above : 2 * (rounded * denominator) ≤ 2 * numerator + denominator
  below : 2 * numerator ≤ 2 * (rounded * denominator) + denominator
  even : tie = .toEven → 2 * (rounded * denominator) = 2 * numerator + denominator ∨
    2 * numerator = 2 * (rounded * denominator) + denominator → rounded % 2 = 0
  away : tie = .away → 2 * numerator ≠ 2 * (rounded * denominator) + denominator

theorem isNearest_divide (tie : Tie) (numerator : Nat) {denominator : Nat} (h : 0 < denominator) :
    IsNearest tie numerator denominator (divide tie numerator denominator) := by
  have hsplit := Nat.div_add_mod' numerator denominator
  have hless := Nat.mod_lt numerator h
  have hnext := Nat.succ_mul (numerator / denominator) denominator
  rw [Nat.succ_eq_add_one] at hnext
  unfold divide
  dsimp only
  generalize numerator / denominator = quotient at *
  generalize numerator % denominator = remainder at *
  split
  · exact ⟨by omega, by omega, fun _ => by omega, fun _ => by omega⟩
  · split
    · exact ⟨by omega, by omega, fun _ => by omega, fun _ => by omega⟩
    · cases tie with
      | away =>
        dsimp only
        exact ⟨by omega, by omega, nofun, fun _ => by omega⟩
      | toEven =>
        dsimp only
        rcases Nat.mod_two_eq_zero_or_one quotient with hparity | hparity
        · rw [hparity, Nat.add_zero]
          exact ⟨by omega, by omega, fun _ _ => hparity, nofun⟩
        · rw [hparity]
          exact ⟨by omega, by omega, fun _ _ => by omega, nofun⟩

section Significand

/-- The last place of a number that is written with 53 significant bits. -/
def lastPlace (n : Nat) : Nat := 2 ^ (Nat.log2 n - 52)

theorem lastPlace_pos (n : Nat) : 0 < lastPlace n := Nat.two_pow_pos _

/-- A last place is a power of two. -/
theorem lastPlace_dvd {n k m : Nat} (h : lastPlace n ≤ 2 ^ k) : lastPlace n ∣ m * 2 ^ k :=
  Nat.dvd_mul_left_of_dvd (Nat.pow_dvd_pow 2 ((Nat.pow_le_pow_iff_right (by decide)).mp h)) m

theorem toSignificand_eq (n : Nat) :
    toSignificand n = divide .toEven n (lastPlace n) * lastPlace n := by
  simp only [toSignificand, lastPlace, Nat.shiftLeft_eq, Nat.one_mul]

/-- A number of at least 53 bits has between 2 ^ 52 and 2 ^ 53 of its last places. -/
theorem lastPlace_bounds {n : Nat} (h : 2 ^ 52 ≤ n) :
    2 ^ 52 * lastPlace n ≤ n ∧ n < 2 ^ 53 * lastPlace n := by
  have hne : n ≠ 0 := Nat.ne_of_gt (Nat.lt_of_lt_of_le (by decide) h)
  have hlog : 52 ≤ Nat.log2 n := (Nat.le_log2 hne).mpr h
  have hlow : 2 ^ 52 * lastPlace n = 2 ^ Nat.log2 n := by
    rw [lastPlace, ← Nat.pow_add, Nat.add_sub_cancel' hlog]
  have hhigh : 2 ^ 53 * lastPlace n = 2 ^ (Nat.log2 n + 1) := by
    rw [Nat.pow_succ 2 52, Nat.mul_right_comm, hlow, Nat.pow_succ]
  rw [hlow, hhigh]
  exact ⟨Nat.log2_self_le hne, Nat.lt_log2_self⟩

theorem toSignificand_of_lt {n : Nat} (h : n < 2 ^ 53) : toSignificand n = n := by
  have hlog : Nat.log2 n - 52 = 0 := by
    rcases Nat.eq_zero_or_pos n with rfl | hpos
    · rfl
    · have := (Nat.log2_lt (Nat.ne_of_gt hpos)).mpr h
      omega
  have hplace : lastPlace n = 1 := by rw [lastPlace, hlog, Nat.pow_zero]
  have hnear := isNearest_divide .toEven n Nat.one_pos
  rw [toSignificand_eq, hplace]
  have := hnear.above
  have := hnear.below
  omega

theorem toSignificand_le (n : Nat) : 2 * toSignificand n ≤ 2 * n + lastPlace n := by
  rw [toSignificand_eq]
  exact (isNearest_divide .toEven n (lastPlace_pos n)).above

/-- Rounding reaches every whole number of last places that is less than half a place above. -/
theorem le_toSignificand {m n : Nat} (hm : lastPlace n ∣ m) (h : 2 * m < 2 * n + lastPlace n) :
    m ≤ toSignificand n := by
  obtain ⟨k, rfl⟩ := hm
  have hbelow := (isNearest_divide .toEven n (lastPlace_pos n)).below
  rw [toSignificand_eq, Nat.mul_comm _ k]
  rw [Nat.mul_comm _ k] at h
  refine Nat.mul_le_mul_right _ (Nat.le_of_lt_succ ?_)
  have hless : k * lastPlace n < (divide .toEven n (lastPlace n) + 1) * lastPlace n := by
    rw [Nat.succ_mul]
    omega
  exact Nat.lt_of_mul_lt_mul_right hless

end Significand

end RespLoad.Rounding
