import RespLoad.Bytes

/-!
# Decimal numerals

Numbers are written with the fewest digits. They are read back by a bounded reader that never forms
a value above its bound: before a digit is taken in, the value so far is held against
`(limit - digit) / 10`. A reader fails on the empty string and on every byte that is no digit.
-/
namespace RespLoad.Decimal

/-- The octet of a digit below ten. -/
def digit (d : Nat) : UInt8 := UInt8.ofNat (48 + d)

/-- The decimal digits of `n`, most significant first, without leading zeros. -/
def ofNat (n : Nat) : Bytes :=
  if n < 10 then [digit n] else ofNat (n / 10) ++ [digit (n % 10)]

/-- The digits of the magnitude after a minus sign where one is due. -/
def ofInt : Int → Bytes
  | .ofNat n => ofNat n
  | .negSucc n => utf8 "-" ++ ofNat (n + 1)

/-- The value of a digit octet. -/
def digitValue (b : UInt8) : Nat := b.toNat - 48

/-- Takes one more digit into `value`, unless the byte is no digit or the result would exceed
`limit`. -/
def extend? (limit value : Nat) (b : UInt8) : Option Nat :=
  if Bytes.isDigit b then
    if (limit - digitValue b) / 10 < value then none else some (value * 10 + digitValue b)
  else none

/-- Reads one or more digits whose value is at most `limit`. -/
def read? (limit : Nat) (s : Bytes) : Option Nat :=
  if s.isEmpty then none else s.foldlM (extend? limit) 0

/-- Reads digits after an optional minus sign; the magnitude is at most `limit`. -/
def readSigned? (limit : Nat) : Bytes → Option Int
  | [] => none
  | b :: rest =>
    if b = 45 then (read? limit rest).map fun n => -(n : Int)
    else (read? limit (b :: rest)).map fun n => (n : Int)

/-- The greatest value of an unsigned 64-bit word. -/
def maxWord64 : Nat := 0xFFFFFFFFFFFFFFFF

/-- The greatest value of a signed 32-bit word. -/
def maxInt32 : Nat := 0x7FFFFFFF

/-- Reads digits whose value lies between `lo` and `hi`. -/
def readBetween? (lo hi : Nat) (s : Bytes) : Option Nat :=
  (read? maxWord64 s).filter fun n => lo ≤ n && n ≤ hi

end RespLoad.Decimal
