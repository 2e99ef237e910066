/-!
# Clocks

A clock is the sequence of its readings, in whole nanoseconds, together with the number of readings
already taken. A clock that advances by given ticks before each reading goes round the ticks for ever.
-/
namespace RespLoad

/-- The readings of a clock, of which the first `taken` are past. -/
structure Clock where
  reading : Nat → Int
  taken : Nat := 0

namespace Clock

/-- The next reading, and the clock after it. -/
def read (clock : Clock) : Int × Clock :=
  (clock.reading clock.taken, { clock with taken := clock.taken + 1 })

/-- The time that passes over a list of ticks. -/
def elapsed (ticks : List Int) : Int := ticks.foldr (· + ·) 0

/-- A clock that starts at zero and advances by the ticks in turn, before each reading. -/
def ofTicks (ticks : List Int) : Clock where
  reading := fun k =>
    elapsed ticks * ((k + 1) / ticks.length : Nat) + elapsed (ticks.take ((k + 1) % ticks.length))

/-- The clock of a simulation that says nothing about time: a microsecond from reading to reading. -/
def steady : Clock := ofTicks [1000]

end Clock

/-- A span of time in microseconds. -/
def micros (nanos : Int) : Float := Float.ofInt nanos / 1000

/-- A span of time in seconds. -/
def seconds (nanos : Int) : Float := Float.ofInt nanos / 1000000000

end RespLoad
