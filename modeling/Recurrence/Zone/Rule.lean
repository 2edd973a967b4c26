import Recurrence.Weekday.Basic
import Recurrence.Zone.Clock

/-!
# Rules for turning a clock

The clock of a zone is laid down by rules: in each of a range of years, on a certain day of a
month and at a certain time by the clock, one offset gives way to another one.  `ZoneRules.clock`
writes the transitions out, year by year, and puts each at its place in time.
-/

namespace Recurrence

/-- A day of a month. -/
inductive DayRule where
  /-- The day with a number. -/
  | on (day : Nat)
  /-- The last day that falls on a weekday. -/
  | last (weekday : Weekday)
  /-- The first day from a number on that falls on a weekday. -/
  | onOrAfter (weekday : Weekday) (day : Nat)

namespace DayRule

/-- The number of the day in a year and a month. -/
def dayNumber (year : Int) (month : Nat) : DayRule → Int
  | on day => Calendar.Date.dayNumber ⟨year, month, day⟩
  | last weekday =>
    let date : Calendar.Date := ⟨year, month, Calendar.monthLength year month⟩
    date.dayNumber - ((date.weekday : Int) - weekday.number) % 7
  | onOrAfter weekday day =>
    let date : Calendar.Date := ⟨year, month, day⟩
    date.dayNumber + ((weekday.number : Int) - date.weekday) % 7

end DayRule

/-- In the years from `firstYear` to `lastYear`, at `time` seconds after midnight, the clock is
turned from the offset `before` to the offset `after`. -/
structure ZoneRule where
  firstYear : Nat
  lastYear : Nat
  month : Nat
  day : DayRule
  time : Int
  before : Int
  after : Int

/-- The transition of one year. -/
def ZoneRule.transition (rule : ZoneRule) (year : Nat) : Transition :=
  ⟨rule.day.dayNumber year rule.month * 86400 + rule.time - rule.before, rule.after⟩

/-- The transitions of all years. -/
def ZoneRule.transitions (rule : ZoneRule) : List Transition :=
  (List.range' rule.firstYear (rule.lastYear + 1 - rule.firstYear)).map rule.transition

/-- The offset that a clock starts with, and the rules it follows. -/
structure ZoneRules where
  initial : Int
  rules : List ZoneRule

/-- The clock that follows the rules. -/
def ZoneRules.clock (rules : ZoneRules) : Clock :=
  (rules.rules.flatMap ZoneRule.transitions).foldr Clock.turn (.fixed rules.initial)

end Recurrence
