import Recurrence.Expression.Basic
import Recurrence.Span.Text
import Recurrence.Text.Blank
import Recurrence.Text.Quoted
import Recurrence.Weekday.Text

/-!
# Expressions as text

An expression is written `[weekdays] [[year-]month-day] [hour:minute[:second]] [zone]`, in words
separated by blanks.  Each part may be left out, as long as the first word is no zone, and a part is
known by its characters: a date has a hyphen, a time a colon, and a first word with neither is a
list of weekdays.  A star stands for all values of a field.

The canonical text always has the date and the time; it leaves out the weekdays if they are all of
them, and the zone if it is that of the machine.
-/

namespace Recurrence

variable [ZoneDatabase]

/-! ### Reading -/

/-- Reads the series of a field, or the star. -/
def readField (field : Field) (s : List Char) : Except ParseError Series :=
  if s = ['*'] then .ok (.all field)
  else (Series.readFor field s).mapError (.inField field)

namespace DatePattern

/-- Reads the three fields of a date. -/
def readParts (years months days : List Char) : Except ParseError DatePattern := do
  let years ← readField .years years
  let months ← readField .months months
  let days ← readField .days days
  return ⟨years, months, days⟩

/-- Reads a date; without a year it is meant for all years. -/
def read (s : List Char) : Except ParseError DatePattern :=
  match s.splitOn '-' with
  | [months, days] => readParts ['*'] months days
  | [years, months, days] => readParts years months days
  | parts => .error (.tooManyParts .date parts.length)

end DatePattern

namespace TimePattern

/-- Reads the three fields of a time. -/
def readParts (hours minutes seconds : List Char) : Except ParseError TimePattern := do
  let hours ← readField .hours hours
  let minutes ← readField .minutes minutes
  let seconds ← readField .seconds seconds
  return ⟨hours, minutes, seconds⟩

/-- Reads a time; without seconds it is meant for the full minute. -/
def read (s : List Char) : Except ParseError TimePattern :=
  match s.splitOn ':' with
  | [hours, minutes] => readParts hours minutes ['0', '0']
  | [hours, minutes, seconds] => readParts hours minutes seconds
  | parts => .error (.tooManyParts .time parts.length)

end TimePattern

/-- Takes the first word if it is of the wanted kind and reads it; else takes none. -/
def readWord {α : Type} (wanted : List Char → Bool) (read : List Char → Except ParseError α)
    (omitted : α) : List (List Char) → Except ParseError (α × List (List Char))
  | [] => .ok (omitted, [])
  | word :: rest =>
    if wanted word then (read word).map fun part => (part, rest) else .ok (omitted, word :: rest)

namespace Expression

/-- The greatest number of words. -/
def maxWords : Nat := 4

/-- A word that can only be a list of weekdays, if it is the first one. -/
def isWeekdays (word : List Char) : Bool :=
  !word.contains '-' && !word.contains ':'

/-- Reads an expression from its words. -/
def ofWords (words : List (List Char)) : Except ParseError Expression := do
  if words = [] then throw .emptyExpression
  if maxWords < words.length then throw (.tooManyChunks words.length)
  let (weekdays, words) ← readWord isWeekdays
    (fun word => (WeekdaySeries.read word).mapError (.inField .weekdays)) .all words
  let (date, words) ← readWord (·.contains '-') DatePattern.read .omitted words
  let (time, words) ← readWord (·.contains ':') TimePattern.read .omitted words
  let (zone, words) ← readWord (fun _ => true)
    (fun word => Zone.resolve (String.ofList word)) .machine words
  match words with
  | [] => return ⟨weekdays, date, time, zone⟩
  | word :: _ => throw (.unconsumedChunk (String.ofList word))

/-- Reads an expression. -/
def read (s : List Char) : Except ParseError Expression :=
  ofWords (Text.words s)

/-- The expression that a text stands for. -/
def parse (s : String) : Except ParseError Expression :=
  read s.toList

/-- What is said when a text that has to be an expression is none. -/
def rejection (s : String) (cause : ParseError) : String :=
  "invalid calendar expression " ++ Text.quoted s ++ ": " ++ cause.message

end Expression

/-! ### Writing -/

/-- The characters of the series of a field. -/
def fieldChars (field : Field) (series : Series) : List Char :=
  if series = .all field then ['*'] else series.chars

/-- The characters of a date. -/
def DatePattern.chars (date : DatePattern) : List Char :=
  ['-'].intercalate
    [fieldChars .years date.years, fieldChars .months date.months, fieldChars .days date.days]

/-- The characters of a time. -/
def TimePattern.chars (time : TimePattern) : List Char :=
  [':'].intercalate
    [fieldChars .hours time.hours, fieldChars .minutes time.minutes,
      fieldChars .seconds time.seconds]

namespace Expression

/-- The words of the canonical text. -/
def words (e : Expression) : List (List Char) :=
  (if e.weekdays = .all then [] else [e.weekdays.chars]) ++ [e.date.chars, e.time.chars] ++
    (if e.zone = .machine then [] else [e.zone.name.toList])

/-- The characters of the canonical text. -/
def chars (e : Expression) : List Char :=
  [' '].intercalate e.words

/-- The canonical text. -/
def text (e : Expression) : String :=
  String.ofList e.chars

end Expression

end Recurrence
