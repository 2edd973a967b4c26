import Recurrence.Calendar.Date
import Recurrence.Text.Numeral

/-!
# The reading of a clock

A `WallTime` is what a clock on the wall and a calendar show, to the second.  Readings stand on a
line of seconds of their own (`WallTime.seconds`), on which 1970-01-01T00:00:00 is zero, wherever
the clock hangs.
-/

namespace Recurrence.Calendar

/-- A date and a time of day. -/
structure WallTime where
  date : Date
  hour : Nat
  minute : Nat
  second : Nat
deriving DecidableEq

namespace WallTime

/-- Whether a clock can show the reading. -/
def IsValid (wall : WallTime) : Prop :=
  wall.date.IsValid ∧ wall.hour < 24 ∧ wall.minute < 60 ∧ wall.second < 60

instance (wall : WallTime) : Decidable wall.IsValid :=
  inferInstanceAs (Decidable (_ ∧ _))

/-- The place of a reading on the line of seconds. -/
def seconds (wall : WallTime) : Int :=
  wall.date.dayNumber * 86400 + wall.hour * 3600 + wall.minute * 60 + wall.second

/-- The reading at a place on the line of seconds. -/
def ofSeconds (seconds : Int) : WallTime :=
  let rest := (seconds % 86400).toNat
  ⟨Date.ofDayNumber (seconds / 86400), rest / 3600, rest / 60 % 60, rest % 60⟩

/-- A year has four digits; outside `0 .. 9999` it has a sign as well, and as many digits as it
needs. -/
def yearChars (year : Int) : List Char :=
  if 0 ≤ year ∧ year ≤ 9999 then Text.padded 4 year.toNat
  else (if year < 0 then '-' else '+') :: Text.padded 4 year.natAbs

/-- The reading as `YYYY-MM-DDTHH:MM:SS`, with `extra` seconds added to the last number only, so
that it is 60 within a leap second. -/
def chars (wall : WallTime) (extra : Nat) : List Char :=
  yearChars wall.date.year ++ '-' :: Text.padded 2 wall.date.month ++
    '-' :: Text.padded 2 wall.date.day ++ 'T' :: Text.padded 2 wall.hour ++
    ':' :: Text.padded 2 wall.minute ++ ':' :: Text.padded 2 (wall.second + extra)

end WallTime

end Recurrence.Calendar
