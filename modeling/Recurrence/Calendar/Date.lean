/-!
# Dates

Dates of the proleptic Gregorian calendar, and the line of days they stand on.  Day `0` is
1970-01-01; `Date.dayNumber` is the number of a date and `Date.ofDayNumber` the date of a number.

`daysInMonth` finds the length of a month as the day before the first of the next one.  By the same
rule the month numbered zero, which is followed by January, has the 31 days of a December.
-/

namespace Recurrence.Calendar

/-- Whether a year has a 29th of February. -/
def isLeap (year : Int) : Bool :=
  year % 4 = 0 && (year % 100 ≠ 0 || year % 400 = 0)

/-- The number of days of a month of a year; there is no month but the first twelve. -/
def monthLength (year : Int) (month : Nat) : Nat :=
  match month with
  | 1 | 3 | 5 | 7 | 8 | 10 | 12 => 31
  | 4 | 6 | 9 | 11 => 30
  | 2 => if isLeap year then 29 else 28
  | _ => 0

/-- The first year of the calendar. -/
def minYear : Int := -262143

/-- The last year of the calendar. -/
def maxYear : Int := 262142

/-- A day, by year, month and day of the month. -/
structure Date where
  year : Int
  month : Nat
  day : Nat
deriving DecidableEq

/-- The number of the leap years after year 0 and up to `year`, counted backwards below it. -/
def leapsThrough (year : Int) : Int :=
  year / 4 - year / 100 + year / 400

/-- The number of the first day of a year. -/
def yearStart (year : Int) : Int :=
  365 * (year - 1970) + (leapsThrough (year - 1) - leapsThrough 1969)

/-- The number of days of a year that precede a month of it. -/
def daysBefore (year : Int) : Nat → Nat
  | 0 => 0
  | month + 1 => daysBefore year month + monthLength year month

namespace Date

/-- Whether the calendar has the date. -/
def IsValid (date : Date) : Prop :=
  minYear ≤ date.year ∧ date.year ≤ maxYear ∧ 1 ≤ date.day ∧
    date.day ≤ monthLength date.year date.month

instance (date : Date) : Decidable date.IsValid :=
  inferInstanceAs (Decidable (_ ∧ _))

/-- The number of a date. -/
def dayNumber (date : Date) : Int :=
  yearStart date.year + daysBefore date.year date.month + date.day - 1

/-- The year that a day belongs to: the mean length of a year gives it, or a neighbour of it. -/
def yearOf (number : Int) : Int :=
  let guess := number * 400 / 146097 + 1970
  if number < yearStart guess then guess - 1
  else if yearStart (guess + 1) ≤ number then guess + 1
  else guess

/-- The month that a day of a year belongs to, the days being counted from zero. -/
def monthOf (year : Int) (dayOfYear : Nat) : Nat :=
  ([12, 11, 10, 9, 8, 7, 6, 5, 4, 3, 2].find? fun month => daysBefore year month ≤ dayOfYear).getD 1

/-- The date with a given number. -/
def ofDayNumber (number : Int) : Date :=
  let year := yearOf number
  let dayOfYear := (number - yearStart year).toNat
  let month := monthOf year dayOfYear
  ⟨year, month, dayOfYear - daysBefore year month + 1⟩

/-- The day before. -/
def pred (date : Date) : Date :=
  ofDayNumber (date.dayNumber - 1)

/-- The number of the weekday, from Monday, which is 1. -/
def weekday (date : Date) : Nat :=
  ((date.dayNumber + 3) % 7).toNat + 1

end Date

/-- The first day of the month after the given one. -/
def firstOfNextMonth (year month : Nat) : Date :=
  if month = 12 then ⟨year + 1, 1, 1⟩ else ⟨year, month + 1, 1⟩

/-- The number of the last day of a month, and zero if the next month is not in the calendar. -/
def daysInMonth (year month : Nat) : Nat :=
  let next := firstOfNextMonth year month
  if next.IsValid then next.pred.day else 0

end Recurrence.Calendar
