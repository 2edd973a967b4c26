/-!
# The fields of a calendar expression

An expression constrains seven units of time.  Each has inclusive bounds, and a rule for what it
means to leave it out: the fields of the date then match everything, those of the time their
least value.
-/

namespace Recurrence

/-- A unit of time that an expression constrains. -/
inductive Field where
  | weekdays
  | years
  | months
  | days
  | hours
  | minutes
  | seconds
deriving DecidableEq

namespace Field

/-- The least value; weekdays count from Monday. -/
def min : Field → Nat
  | weekdays => 1
  | years => 1970
  | months => 1
  | days => 1
  | hours => 0
  | minutes => 0
  | seconds => 0

/-- The greatest value; for days that of the longest month. -/
def max : Field → Nat
  | weekdays => 7
  | years => 2199
  | months => 12
  | days => 31
  | hours => 23
  | minutes => 59
  | seconds => 59

/-- Whether an expression that leaves the field out matches every value of it. -/
def matchesAllWhenOmitted : Field → Bool
  | hours | minutes | seconds => false
  | weekdays | years | months | days => true

/-- The name used in messages. -/
def name : Field → String
  | weekdays => "weekdays"
  | years => "years"
  | months => "months"
  | days => "days"
  | hours => "hours"
  | minutes => "minutes"
  | seconds => "seconds"

/-- All fields, in the order in which they are written. -/
def all : List Field :=
  [weekdays, years, months, days, hours, minutes, seconds]

/-- The field with a given name. -/
def ofName? (name : String) : Option Field :=
  all.find? fun field => field.name = name

end Field

end Recurrence
