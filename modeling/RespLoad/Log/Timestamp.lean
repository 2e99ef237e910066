import RespLoad.Number.Format

/-!
# Timestamps

The wall clock as a civil date and time of day in UTC, in the Gregorian calendar. A leap day ends the
year here that begins in March, which makes the day count of a month a single formula.
-/
namespace RespLoad

/-- A day of the Gregorian calendar. -/
structure CivilDate where
  year : Int
  month : Nat
  day : Nat
  deriving Repr, DecidableEq

/-- The date so many days after the first of January 1970. -/
def CivilDate.ofDays (days : Int) : CivilDate :=
  let sinceMarch := days + 719468
  let era := sinceMarch / 146097
  let dayOfEra := (sinceMarch % 146097).toNat
  let yearOfEra := (dayOfEra - dayOfEra / 1460 + dayOfEra / 36524 - dayOfEra / 146096) / 365
  let dayOfYear := dayOfEra - (365 * yearOfEra + yearOfEra / 4 - yearOfEra / 100)
  let monthFromMarch := (5 * dayOfYear + 2) / 153
  let month := if monthFromMarch < 10 then monthFromMarch + 3 else monthFromMarch - 9
  { year := era * 400 + yearOfEra + (if month ≤ 2 then 1 else 0)
    month := month
    day := dayOfYear - (153 * monthFromMarch + 2) / 5 + 1 }

/-- Milliseconds since the start of 1970 as `YYYY-MM-DD HH:MM:SS.mmm`. Whole seconds are cut towards
1970, so before it the milliseconds carry a sign. -/
def timestamp (millis : Int) : Bytes :=
  let seconds := millis.tdiv 1000
  let date := CivilDate.ofDays (seconds / 86400)
  let secondOfDay := (seconds % 86400).toNat
  let pair := fun n => Number.zeroPadded 2 (Decimal.ofNat n)
  Decimal.ofInt date.year ++ utf8 "-" ++ pair date.month ++ utf8 "-" ++ pair date.day ++ utf8 " " ++
    pair (secondOfDay / 3600) ++ utf8 ":" ++ pair (secondOfDay / 60 % 60) ++ utf8 ":" ++
    pair (secondOfDay % 60) ++ utf8 "." ++ Number.zeroPadded 3 (Decimal.ofInt (millis.tmod 1000))

end RespLoad
