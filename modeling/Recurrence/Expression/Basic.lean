import Recurrence.Span.Basic
import Recurrence.Weekday.Basic
import Recurrence.Zone.Basic

/-!
# Calendar expressions

An `Expression` says on which weekdays, on which dates, at which times of day and in which zone
something happens.  What matches is the conjunction of its fields: a reading of the zone's clock
matches if each of its parts is in the series of its field (`Expression.Matches`).
-/

namespace Recurrence

open Calendar

variable [ZoneDatabase]

/-- The fields of a date. -/
structure DatePattern where
  years : Series
  months : Series
  days : Series
deriving DecidableEq

/-- The fields of a time of day. -/
structure TimePattern where
  hours : Series
  minutes : Series
  seconds : Series
deriving DecidableEq

/-- A pattern of readings of the clock of a zone. -/
structure Expression where
  weekdays : WeekdaySeries
  date : DatePattern
  time : TimePattern
  zone : Zone
deriving DecidableEq

/-- Every date. -/
def DatePattern.omitted : DatePattern :=
  ⟨.omitted .years, .omitted .months, .omitted .days⟩

/-- Midnight. -/
def TimePattern.omitted : TimePattern :=
  ⟨.omitted .hours, .omitted .minutes, .omitted .seconds⟩

namespace Expression

/-- The series of a field.  The weekdays have a type of their own; the years stand in for them. -/
def series (e : Expression) : Field → Series
  | .weekdays => e.date.years
  | .years => e.date.years
  | .months => e.date.months
  | .days => e.date.days
  | .hours => e.time.hours
  | .minutes => e.time.minutes
  | .seconds => e.time.seconds

/-- Whether a value is in the series of a field. -/
def Admits (e : Expression) (field : Field) (value : Nat) : Prop :=
  value ∈ (e.series field).values field.max

/-- Whether a reading satisfies all fields. -/
def Matches (e : Expression) (wall : WallTime) : Prop :=
  wall.IsValid ∧ 0 ≤ wall.date.year ∧ e.Admits .years wall.date.year.toNat ∧
    e.Admits .months wall.date.month ∧ e.Admits .days wall.date.day ∧
    e.weekdays.contains wall.date.weekday = true ∧ e.Admits .hours wall.hour ∧
    e.Admits .minutes wall.minute ∧ e.Admits .seconds wall.second

instance (e : Expression) (field : Field) (value : Nat) : Decidable (e.Admits field value) :=
  inferInstanceAs (Decidable (_ ∈ _))

instance (e : Expression) (wall : WallTime) : Decidable (e.Matches wall) :=
  inferInstanceAs (Decidable (_ ∧ _))

end Expression

end Recurrence
