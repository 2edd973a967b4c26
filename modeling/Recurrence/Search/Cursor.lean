import Recurrence.Calendar.WallTime
import Recurrence.Field

/-!
# The cursor of a search

A `Cursor` holds a reading while it is being searched for.  Any of its units but the year may have
run over by one, like the second 60 or the month 13; the next pass carries it into the coarser
unit.
-/

namespace Recurrence.Search

open Calendar

/-- The units of a reading, from the coarsest to the finest.  The weekday is one of them: it has to
fit once the day is settled. -/
inductive Stage where
  | year
  | month
  | day
  | weekday
  | hour
  | minute
  | second
deriving DecidableEq

/-- All stages of a pass, in order. -/
def Stage.all : List Stage :=
  [.year, .month, .day, .weekday, .hour, .minute, .second]

/-- A reading that need not be one of a clock. -/
structure Cursor where
  year : Nat
  month : Nat
  day : Nat
  hour : Nat
  minute : Nat
  second : Nat
deriving DecidableEq

namespace Cursor

/-- The second after a reading.  There is no year below zero, and no expression has one. -/
def startingAfter (wall : WallTime) : Cursor :=
  ⟨wall.date.year.toNat, wall.date.month, wall.date.day, wall.hour, wall.minute, wall.second + 1⟩

/-- The cursor with every unit finer than that of a stage at its least value. -/
def clearBelow : Stage → Cursor → Cursor
  | .year, c => ⟨c.year, Field.months.min, Field.days.min, Field.hours.min, Field.minutes.min,
      Field.seconds.min⟩
  | .month, c => ⟨c.year, c.month, Field.days.min, Field.hours.min, Field.minutes.min,
      Field.seconds.min⟩
  | .day, c => ⟨c.year, c.month, c.day, Field.hours.min, Field.minutes.min, Field.seconds.min⟩
  | .weekday, c => ⟨c.year, c.month, c.day, Field.hours.min, Field.minutes.min, Field.seconds.min⟩
  | .hour, c => ⟨c.year, c.month, c.day, c.hour, Field.minutes.min, Field.seconds.min⟩
  | .minute, c => ⟨c.year, c.month, c.day, c.hour, c.minute, Field.seconds.min⟩
  | .second, c => c

/-- The date of the cursor, if the calendar has it. -/
def date? (c : Cursor) : Option Date :=
  let date : Date := ⟨c.year, c.month, c.day⟩
  if date.IsValid then some date else none

/-- The reading of the cursor, if a clock can show it. -/
def wall? (c : Cursor) : Option WallTime :=
  let wall : WallTime := ⟨⟨c.year, c.month, c.day⟩, c.hour, c.minute, c.second⟩
  if wall.IsValid then some wall else none

end Cursor

end Recurrence.Search
