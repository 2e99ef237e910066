import RespLoad.Number.Binary64
import RespLoad.Number.Decimal

/-!
# Numbers as they are printed

Two formats of a double. `thousands` is the nearest integer in groups of three digits, a half going
away from zero. `fixed` is the exact value with a fixed number of decimal places, a half going to the
even neighbour.
-/
namespace RespLoad.Number

/-- Puts a comma in front of each group of three digits but the first, counted from the end. -/
def groupDigits : Bytes → Bytes
  | [] => []
  | d :: rest =>
    if rest.length % 3 = 0 ∧ rest ≠ [] then d :: 44 :: groupDigits rest else d :: groupDigits rest

/-- The greatest magnitude that the grouped format shows; greater ones are shown as this. -/
def maxGrouped : Nat := 0x8000000000000000

/-- A magnitude in groups of three digits; zero has no sign. -/
def grouped (negative : Bool) (magnitude : Nat) : Bytes :=
  let digits := groupDigits (Decimal.ofNat (min magnitude maxGrouped))
  if negative && magnitude != 0 then utf8 "-" ++ digits else digits

/-- The integer nearest to a double, in groups of three digits. -/
def thousands : Binary64 → Bytes
  | .finite negative significand exponent =>
    grouped negative (Rounding.toInteger .away significand exponent)
  | .infinite negative => grouped negative maxGrouped
  | .nan _ => grouped false maxGrouped

/-- Zeros in front of a numeral, up to a least number of digits. -/
def zeroPadded (width : Nat) (digits : Bytes) : Bytes :=
  List.replicate (width - digits.length) 48 ++ digits

/-- A number of `units` of the last decimal place. -/
def pointed (places units : Nat) : Bytes :=
  let digits := zeroPadded (places + 1) (Decimal.ofNat units)
  let whole := digits.length - places
  digits.take whole ++ utf8 "." ++ digits.drop whole

def sign (negative : Bool) : Bytes := if negative then utf8 "-" else []

/-- A double with so many decimal places. What has a sign bit has a minus sign, a zero and what is no
number included. -/
def fixed (places : Nat) : Binary64 → Bytes
  | .finite negative significand exponent =>
    sign negative ++
      pointed places (Rounding.toInteger .toEven (significand * Nat.pow 10 places) exponent)
  | .infinite negative => sign negative ++ utf8 "inf"
  | .nan negative => sign negative ++ utf8 "nan"

end RespLoad.Number
