import RespLoad.Number.Rounding

/-!
# Doubles as exact numbers

A double is read from its bit pattern as a signed significand times a power of two, an infinity or no
number. What depends on its exact value, such as the printed digits or the rank of a percentile, is
computed on that reading in natural numbers. A pattern that is no number has a sign bit too. It decides
no comparison, but it is printed, and `Float` does not keep it: so the figures that are only shown are
held in this form.
-/
namespace RespLoad

/-- The value of a double, or the sign of one that is no number; a finite one is
`significand * 2 ^ exponent` with a sign. -/
inductive Binary64 where
  | nan (negative : Bool)
  | infinite (negative : Bool)
  | finite (negative : Bool) (significand : Nat) (exponent : Int)
  deriving Repr, DecidableEq

namespace Binary64

/-- The positive zero, in the form in which it is read from its bit pattern. -/
instance zeroBinary64 : Zero Binary64 := ⟨.finite false 0 (-1074)⟩

/-- Reads a bit pattern: one sign bit, eleven of the biased exponent, fifty-two of the fraction. -/
def ofBits (bits : UInt64) : Binary64 :=
  let word := bits.toNat
  let negative := decide (0x8000000000000000 ≤ word)
  let biased : Nat := word / 0x10000000000000 % 0x800
  let fraction : Nat := word % 0x10000000000000
  if biased = 2047 then
    if fraction = 0 then .infinite negative else .nan negative
  else if biased = 0 then .finite negative fraction (-1074)
  else .finite negative (0x10000000000000 + fraction) ((biased : Int) - 1075)

/-- The value of a double that was computed. -/
def ofFloat (x : Float) : Binary64 := ofBits x.toBits

/-- The integer part of `fraction * count`, where the count is first rounded to a double and the
product is rounded to a double again, kept below `count`; zero for no elements. -/
def percentileIndex (fraction : Binary64) (count : Nat) : Nat :=
  if count = 0 then 0
  else match fraction with
    | .finite false significand exponent =>
      let product := Rounding.toSignificand (significand * Rounding.toSignificand count)
      min (Rounding.floor product exponent) (count - 1)
    | .infinite false => count - 1
    | _ => 0

end Binary64

end RespLoad
