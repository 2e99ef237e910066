/-!
# Rounding to nearest

Exact rounding of quotients of natural numbers, and from it the two roundings that the statistics and
the report rest on: to a whole number of units, and to 53 significant bits.
-/
namespace RespLoad.Rounding

/-- Where an exact half goes: to the even neighbour, or away from zero. -/
inductive Tie where
  | toEven
  | away
  deriving Repr, DecidableEq

/-- The integer nearest to `numerator / denominator`. -/
def divide (tie : Tie) (numerator denominator : Nat) : Nat :=
  let quotient := numerator / denominator
  let remainder := numerator % denominator
  if 2 * remainder < denominator then quotient
  else if denominator < 2 * remainder then quotient + 1
  else match tie with
    | .toEven => quotient + quotient % 2
    | .away => quotient + 1

/-- The integer nearest to `significand * 2 ^ exponent`. -/
def toInteger (tie : Tie) (significand : Nat) : Int → Nat
  | .ofNat k => significand <<< k
  | .negSucc k => divide tie significand (1 <<< (k + 1))

/-- The greatest integer that is not above `significand * 2 ^ exponent`. -/
def floor (significand : Nat) : Int → Nat
  | .ofNat k => significand <<< k
  | .negSucc k => significand >>> (k + 1)

/-- The nearest number of at most 53 significant bits, a half going to the even one. -/
def toSignificand (n : Nat) : Nat :=
  let excess := Nat.log2 n - 52
  divide .toEven n (1 <<< excess) <<< excess

end RespLoad.Rounding
