import Mathlib

/-!
# The order of doubles

The comparison of doubles as an order. Every double that is a number has a place among all of them: its side
of zero, then its exponent, then its significand. Two such doubles compare as their places do, and they share
a place only if they are equal or the two zeros.
-/
namespace RespLoad

namespace Double

open Float.Model (UnpackedFloat)

/-- Where a double stands among all. The last place is for what is no number. -/
def place : UnpackedFloat → ℤ ×ₗ ℤ ×ₗ ℤ
  | .infinity .negative => toLex (-2, toLex (0, 0))
  | .finite .negative significand exponent _ => toLex (-1, toLex (-exponent, -significand))
  | .zero _ => toLex (0, toLex (0, 0))
  | .finite .positive significand exponent _ => toLex (1, toLex (exponent, significand))
  | .infinity .positive => toLex (2, toLex (0, 0))
  | .notANumber => toLex (3, toLex (0, 0))

theorem then_isLE {e e' : ℤ} {m m' : ℕ} :
    ((compare e e').then (compare m m')).isLE = true ↔ e < e' ∨ e = e' ∧ m ≤ m' := by
  rw [Ordering.isLE_then_iff_or, Int.compare_eq_lt, Int.compare_eq_eq, Nat.isLE_compare]

theorem then_isGE {e e' : ℤ} {m m' : ℕ} :
    ((compare e e').then (compare m m')).isGE = true ↔ e' < e ∨ e = e' ∧ m' ≤ m := by
  rw [← Ordering.isLE_swap, Ordering.swap_then, ← Std.OrientedOrd.eq_swap,
    ← Std.OrientedOrd.eq_swap, then_isLE, eq_comm]

section Unpacked

variable {x y : UnpackedFloat}

-- In both lemmas the side of zero decides, except between two finite doubles on one side of it.

theorem unpacked_le_iff (hx : x ≠ .notANumber) (hy : y ≠ .notANumber) :
    x.le y = true ↔ place x ≤ place y := by
  rcases x with (_ | _) | _ | _ | ⟨_ | _⟩ <;> rcases y with (_ | _) | _ | _ | ⟨_ | _⟩ <;>
    simp [place, UnpackedFloat.le, UnpackedFloat.compare, Prod.Lex.toLex_le_toLex, then_isLE,
      then_isGE] at hx hy ⊢
  all_goals decide

theorem unpacked_beq_of_place_eq (hx : x ≠ .notANumber) (h : place x = place y) :
    x.beq y = true := by
  rcases x with (_ | _) | _ | _ | ⟨_ | _⟩ <;> rcases y with (_ | _) | _ | _ | ⟨_ | _⟩ <;>
    simp_all [place, UnpackedFloat.beq, UnpackedFloat.compare]
  all_goals decide

end Unpacked

variable {x y : Float}

theorem isNaN_iff : x.isNaN = true ↔ x.toModel.unpack = .notANumber :=
  UnpackedFloat.isNaN_iff

theorem le_iff : x ≤ y ↔ x.toModel.unpack.le y.toModel.unpack = true :=
  decide_eq_true_iff

theorem not_le_self_of_isNaN (h : x.isNaN = true) : ¬x ≤ x := by
  rw [le_iff, isNaN_iff.mp h]
  decide

/-- Doubles that are numbers compare as their places do. -/
theorem le_iff_place_le (hx : x.isNaN = false) (hy : y.isNaN = false) :
    x ≤ y ↔ place x.toModel.unpack ≤ place y.toModel.unpack := by
  rw [← Bool.not_eq_true, isNaN_iff] at hx hy
  rw [le_iff, unpacked_le_iff hx hy]

/-- Doubles that share a place are equal, but for the sign of zero. -/
theorem eq_or_zeros_of_place_eq (hx : x.isNaN = false)
    (h : place x.toModel.unpack = place y.toModel.unpack) :
    x = y ∨ (x = 0 ∧ y = -0) ∨ (x = -0 ∧ y = 0) := by
  rw [← Bool.not_eq_true, isNaN_iff] at hx
  have hbeq : (x == y) = true := unpacked_beq_of_place_eq hx h
  exact (Float.beq_iff_ne_nan_and_eq.mp hbeq).2.2

end Double

end RespLoad
