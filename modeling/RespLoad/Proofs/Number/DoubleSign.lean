import RespLoad.Clock
import RespLoad.Proofs.Number.DoubleOrder

/-!
# Doubles with a positive sign

A double with a positive sign that is a number is not below zero. Rounding keeps the sign, products and
quotients by a positive double keep it, and so does the way through the bit pattern, on which a double that
is too great becomes an infinity. So a count is not below zero as a double, and neither is a span of time that
was not negative.
-/
namespace RespLoad

namespace Double

open Float.Model (UnpackedFloat Format)
open Float.Model.UnpackedFloat

/-- A number with a positive sign. -/
inductive Unsigned : UnpackedFloat → Prop where
  | zero : Unsigned (.zero .positive)
  | finite (significand : Nat) (exponent : Int) (h : 0 < significand) :
    Unsigned (.finite .positive significand exponent h)
  | infinity : Unsigned (.infinity .positive)

section Unpacked

variable {format : Format} {x : UnpackedFloat}

theorem unsigned_roundWithAccuracy (format : Format) (significand : Nat) (exponent : Int)
    (accuracy : Accuracy) :
    Unsigned (roundWithAccuracy format .positive significand exponent accuracy) := by
  unfold roundWithAccuracy
  dsimp only
  split
  · exact .zero
  · exact .finite _ _ _

theorem unsigned_normalize (n : Nat) (exponent : Int) :
    Unsigned (UnpackedFloat.normalize format n exponent .positive) := by
  unfold UnpackedFloat.normalize
  split
  · rename_i hbelow
    have hneg := Int.compare_eq_lt.mp hbelow
    omega
  · exact .zero
  · exact unsigned_roundWithAccuracy ..

namespace Unsigned

theorem mul (hx : Unsigned x) (significand : Nat) (exponent : Int) (h : 0 < significand) :
    Unsigned (UnpackedFloat.mul format x (.finite .positive significand exponent h)) := by
  cases hx with
  | zero => exact .zero
  | finite => exact unsigned_roundWithAccuracy ..
  | infinity => exact .infinity

theorem div (hx : Unsigned x) (significand : Nat) (exponent : Int) (h : 0 < significand) :
    Unsigned (UnpackedFloat.div format x (.finite .positive significand exponent h)) := by
  cases hx with
  | zero => exact .zero
  | finite => exact unsigned_roundWithAccuracy ..
  | infinity => exact .infinity

end Unsigned

theorem unsigned_ofScientific (significand : Nat) (exponent : Int) :
    Unsigned (ofScientific format significand exponent) := by
  unfold ofScientific
  split
  · exact .zero
  · split
    · exact .infinity
    · split
      · exact .zero
      · split
        · exact (Unsigned.finite _ _ _).mul ..
        · exact (Unsigned.finite _ _ _).div ..

theorem unpackSign_packComponents {sign : Sign} {exponent : BitVec format.exponentBits}
    {fraction : BitVec format.mantissaBitsWithoutImplicit} :
    unpackSign (packComponents format sign exponent fraction) = sign.toBitVec := by
  apply BitVec.eq_of_getLsbD_eq
  intro i hi
  obtain rfl : i = 0 := by omega
  simp [unpackSign, packComponents, BitVec.getLsbD_append, BitVec.getElem_append]

/-- The exponent of all ones, with a fraction, is the only pattern that is no number. -/
theorem unsigned_unpack_packComponents {exponent : BitVec format.exponentBits}
    {fraction : BitVec format.mantissaBitsWithoutImplicit} (h : exponent = -1#_ → fraction = 0#_) :
    Unsigned (unpack format (packComponents format .positive exponent fraction)) := by
  have hsign : Sign.ofBitVec Sign.positive.toBitVec = .positive := rfl
  simp only [unpack, unpackMantissa_packComponents, unpackExponent_packComponents,
    unpackSign_packComponents, hsign]
  split
  · rw [if_pos (h ‹_›)]
    exact .infinity
  · split
    · split
      · exact .zero
      · exact .finite _ _ _
    · exact .finite _ _ _

/-- An exponent below all ones, normal or subnormal, is that of a number. -/
theorem unsigned_unpack_of_lt {biased : Nat} (h : biased < 2 ^ format.exponentBits - 1)
    (fraction : BitVec format.mantissaBitsWithoutImplicit) :
    Unsigned (unpack format (packComponents format .positive (BitVec.ofNat _ biased) fraction)) := by
  refine unsigned_unpack_packComponents fun hall => absurd (congrArg BitVec.toNat hall) ?_
  rw [BitVec.toNat_ofNat, BitVec.neg_one_eq_allOnes, BitVec.toNat_allOnes,
    Nat.mod_eq_of_lt (by omega)]
  exact h.ne

theorem Unsigned.unpack_pack (hx : Unsigned x) : Unsigned (unpack format (pack format x)) := by
  have hinfinity : Unsigned (unpack format (packedInfinity format .positive)) :=
    unsigned_unpack_packComponents fun _ => rfl
  cases hx with
  | zero => exact unsigned_unpack_packComponents fun _ => rfl
  | infinity => exact hinfinity
  | finite significand exponent h =>
    unfold pack
    dsimp only
    split
    · exact hinfinity
    · rename_i hsmall
      split
      · exact unsigned_unpack_of_lt (by omega) _
      · have hpow := Nat.one_lt_two_pow format.he.ne'
        exact unsigned_unpack_of_lt (by omega) _

end Unpacked

variable {x y : Float}

theorem unpack_one : Float.exactlyRepresentablePowersOfTen[0].toModel.unpack =
    .finite .positive (2 ^ 52) (-52) (by decide) := rfl

theorem unpack_zero : (0 : Float).toModel.unpack = .zero .positive := rfl

theorem zero_le_of_unsigned (hx : Unsigned x.toModel.unpack) : 0 ≤ x := by
  rw [le_iff, unpack_zero]
  generalize x.toModel.unpack = unpacked at hx
  cases hx <;> rfl

/-- A count below `2 ^ 53` is multiplied by one, and a greater one is rounded. -/
theorem unsigned_ofNat (n : Nat) : Unsigned (Float.ofNat n).toModel.unpack := by
  unfold Float.ofNat
  change Unsigned (Float.ofScientific n false 0).toModel.unpack
  unfold Float.ofScientific
  split
  · have hn : Unsigned (n.toUInt64.toFloat).toModel.unpack := (unsigned_normalize _ _).unpack_pack
    simp only [Bool.false_eq_true, if_false]
    change Unsigned (Float.Model.unpack (.pack (UnpackedFloat.mul _ _ _)))
    rw [unpack_one]
    exact (hn.mul _ _ _).unpack_pack
  · exact (unsigned_ofScientific _ _).unpack_pack

theorem unsigned_div {significand : Nat} {exponent : Int} {h : 0 < significand}
    (hx : Unsigned x.toModel.unpack)
    (hy : y.toModel.unpack = .finite .positive significand exponent h) :
    Unsigned (x / y).toModel.unpack := by
  change Unsigned (Float.Model.unpack (.pack (UnpackedFloat.div _ _ _)))
  rw [hy]
  exact (hx.div _ _ _).unpack_pack

end Double

/-- A span of time that is not negative is not negative in microseconds. -/
theorem zero_le_micros {nanos : Int} (h : 0 ≤ nanos) : 0 ≤ micros nanos := by
  obtain ⟨n, rfl⟩ := Int.eq_ofNat_of_zero_le h
  exact Double.zero_le_of_unsigned (Double.unsigned_div (Double.unsigned_ofNat n) rfl)

end RespLoad
