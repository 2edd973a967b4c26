import Recurrence.Span.Text
import Recurrence.Weekday.Basic

/-!
# Days of the week as text

A span of weekdays is written `Mon` or `Mon..Fri`, a series with commas between its spans.  Full
names and any mixture of upper and lower case are read too; what is written are the
abbreviations.
-/

namespace Recurrence

namespace WeekdaySpan

/-- Reads the name of a day. -/
def readDay (s : List Char) : Except ParseError Weekday :=
  match Weekday.ofName? s with
  | some day => .ok day
  | none => .error (.invalidWeekday (String.ofList s))

/-- Reads one day. -/
def readSingle (s : List Char) : Except ParseError WeekdaySpan :=
  (readDay s).map single

/-- Reads a range of days, which may not run past Sunday. -/
def readRange (s : List Char) : Except ParseError WeekdaySpan :=
  match Text.splitDots s with
  | [lower, upper] => do
    let first ← readDay lower
    let last ← readDay upper
    if first.number < last.number then
      return ⟨first.number, some last.number⟩
    else
      throw (.invalidWeekdayRange (String.ofList s))
  | _ => .error (.invalidWeekdayRange (String.ofList s))

/-- Reads a span: a range if it has a pair of dots. -/
def read (s : List Char) : Except ParseError WeekdaySpan :=
  if Text.hasDots s then readRange s else readSingle s

/-- The characters of a span. -/
def chars (span : WeekdaySpan) : List Char :=
  Weekday.abbreviationOf span.first ++
    (match span.last with | some last => '.' :: '.' :: Weekday.abbreviationOf last | none => [])

/-- The text of a span. -/
def text (span : WeekdaySpan) : String :=
  String.ofList span.chars

end WeekdaySpan

namespace WeekdaySeries

/-- Reads a list of spans. -/
def read (s : List Char) : Except ParseError WeekdaySeries :=
  (readElements WeekdaySpan.read 0 (s.splitOn ',')).map WeekdaySeries.mk

/-- The characters of a series. -/
def chars (series : WeekdaySeries) : List Char :=
  [','].intercalate (series.spans.map WeekdaySpan.chars)

/-- The text of a series. -/
def text (series : WeekdaySeries) : String :=
  String.ofList series.chars

/-- The series that a text stands for. -/
def parse (s : String) : Except ParseError WeekdaySeries :=
  read s.toList

end WeekdaySeries

end Recurrence
