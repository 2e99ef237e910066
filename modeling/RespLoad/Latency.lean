import RespLoad.Number.Binary64

/-!
# Latency statistics

Order statistics of a list of samples, over any carrier with the arithmetic they need, so that the
same definitions run on doubles and can be studied on exact numbers. All of them are taken from the
ascending list, the sum included, so the order in which samples were issued does not matter.
-/
namespace RespLoad

/-- A count as a double, rounded to nearest. -/
instance natCastFloat : NatCast Float := ⟨fun n => n.toUInt64.toFloat⟩

/-- The statistics of one list of samples. -/
structure LatencyStats (α : Type) where
  mean : α
  p50 : α
  p95 : α
  p99 : α
  min : α
  max : α
  deriving Repr

/-- The same statistics in another form of number. -/
def LatencyStats.map {α β : Type} (form : α → β) (stats : LatencyStats α) : LatencyStats β where
  mean := form stats.mean
  p50 := form stats.p50
  p95 := form stats.p95
  p99 := form stats.p99
  min := form stats.min
  max := form stats.max

/-- The positions of the two upper percentiles in an ascending list of a given length. -/
structure PercentileRanks where
  p95 : Nat → Nat
  p99 : Nat → Nat

/-- The ranks for the doubles nearest to 0.95 and 0.99. -/
def PercentileRanks.binary64 : PercentileRanks where
  p95 := (Binary64.ofBits 0x3FEE666666666666).percentileIndex
  p99 := (Binary64.ofBits 0x3FEFAE147AE147AE).percentileIndex

namespace Latency

variable {α : Type} [Zero α]

/-- The element at a position that depends on the length; zero for an empty list. -/
def atRank (rank : Nat → Nat) (sorted : List α) : α := sorted[rank sorted.length]?.getD 0

variable [Add α] [Div α] [NatCast α]

/-- The middle element, or half the sum of the two middle ones; zero for an empty list. -/
def median (sorted : List α) : α :=
  let middle := sorted.length / 2
  if sorted.isEmpty then 0
  else if sorted.length % 2 = 1 then sorted[middle]?.getD 0
  else (sorted[middle - 1]?.getD 0 + sorted[middle]?.getD 0) / ((2 : Nat) : α)

/-- The sum over the number of elements; the sum runs from the left, starting at zero. -/
def mean (sorted : List α) : α := sorted.foldl (· + ·) 0 / (sorted.length : α)

/-- The statistics of an ascending list; all zero for an empty one. -/
def statsOfSorted (ranks : PercentileRanks) (sorted : List α) : LatencyStats α :=
  match sorted.head?, sorted.getLast? with
  | some least, some greatest =>
    { mean := mean sorted
      p50 := median sorted
      p95 := atRank ranks.p95 sorted
      p99 := atRank ranks.p99 sorted
      min := least
      max := greatest }
  | _, _ => ⟨0, 0, 0, 0, 0, 0⟩

/-- The statistics of samples in any order. -/
def stats [LE α] [DecidableLE α] (ranks : PercentileRanks) (samples : List α) :
    LatencyStats α :=
  statsOfSorted ranks (samples.mergeSort fun a b => decide (a ≤ b))

end Latency

end RespLoad
