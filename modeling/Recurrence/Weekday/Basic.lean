import Recurrence.Ascending
import Recurrence.ParseError

/-!
# Days of the week

Weekdays count from Monday, which is 1.  A `WeekdaySpan` is one day or a range of days, a
`WeekdaySeries` a list of them.  A series has two views: the ascending list of its days
(`WeekdaySeries.values`) and the test whether a day belongs to it (`WeekdaySeries.contains`).
-/

namespace Recurrence

/-- A day of the week. -/
inductive Weekday where
  | monday
  | tuesday
  | wednesday
  | thursday
  | friday
  | saturday
  | sunday
deriving DecidableEq

namespace Weekday

/-- The days in order. -/
def all : List Weekday :=
  [monday, tuesday, wednesday, thursday, friday, saturday, sunday]

/-- The number of a day, from Monday, which is 1. -/
def number : Weekday → Nat
  | monday => 1
  | tuesday => 2
  | wednesday => 3
  | thursday => 4
  | friday => 5
  | saturday => 6
  | sunday => 7

/-- The day with a given number. -/
def ofNumber? (number : Nat) : Option Weekday :=
  all.find? fun day => day.number = number

/-- The three letters that stand for a day. -/
def abbreviation : Weekday → List Char
  | monday => ['M', 'o', 'n']
  | tuesday => ['T', 'u', 'e']
  | wednesday => ['W', 'e', 'd']
  | thursday => ['T', 'h', 'u']
  | friday => ['F', 'r', 'i']
  | saturday => ['S', 'a', 't']
  | sunday => ['S', 'u', 'n']

/-- The full name of a day. -/
def fullName : Weekday → List Char
  | monday => "Monday".toList
  | tuesday => "Tuesday".toList
  | wednesday => "Wednesday".toList
  | thursday => "Thursday".toList
  | friday => "Friday".toList
  | saturday => "Saturday".toList
  | sunday => "Sunday".toList

/-- The day with a given name, full or abbreviated; only the case of ASCII letters is free. -/
def ofName? (name : List Char) : Option Weekday :=
  let lower := name.map Char.toLower
  all.find? fun day =>
    lower = day.fullName.map Char.toLower || lower = day.abbreviation.map Char.toLower

/-- The abbreviation of the day with a given number, and a question mark if there is none. -/
def abbreviationOf (number : Nat) : List Char :=
  match ofNumber? number with
  | some day => day.abbreviation
  | none => ['?']

end Weekday

/-- The day `first`, or the days from `first` to `last`, by number. -/
structure WeekdaySpan where
  first : Nat
  last : Option Nat
deriving DecidableEq

namespace WeekdaySpan

/-- One day. -/
def single (day : Weekday) : WeekdaySpan :=
  ⟨day.number, none⟩

/-- The days from one to a later one of the same week. -/
def range (first last : Weekday) : Except ParseError WeekdaySpan :=
  if first.number < last.number then .ok ⟨first.number, some last.number⟩
  else
    .error (.invalidWeekdayRange
      (String.ofList (first.abbreviation ++ '.' :: '.' :: last.abbreviation)))

/-- The days of a span, up to Sunday; a single number is kept as it is. -/
def values (span : WeekdaySpan) : List Nat :=
  match span.last with
  | none => [span.first]
  | some last => List.range' span.first (min last 7 + 1 - span.first)

/-- Whether a day belongs to a span. -/
def contains (span : WeekdaySpan) (day : Nat) : Bool :=
  match span.last with
  | none => span.first == day
  | some last => span.first ≤ day && day ≤ min last 7

end WeekdaySpan

/-- A list of spans of weekdays. -/
structure WeekdaySeries where
  spans : List WeekdaySpan
deriving DecidableEq

namespace WeekdaySeries

/-- All days, from Monday to Sunday. -/
def all : WeekdaySeries :=
  ⟨[⟨1, some 7⟩]⟩

/-- The numbers of the days, ascending and at most 7. -/
def values (series : WeekdaySeries) : List Nat :=
  (series.spans.foldr (fun span rest => Ascending.union span.values rest) []).filter (· ≤ 7)

/-- Whether one of the spans contains a day, given by number. -/
def contains (series : WeekdaySeries) (day : Nat) : Bool :=
  series.spans.any fun span => span.contains day

/-- Whether one of the spans contains a day. -/
def containsDay (series : WeekdaySeries) (day : Weekday) : Bool :=
  series.contains day.number

end WeekdaySeries

end Recurrence
