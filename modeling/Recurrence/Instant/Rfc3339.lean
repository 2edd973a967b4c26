import Recurrence.Instant.Basic

/-!
# Stamps as RFC 3339 text

`Stamp.rfc3339` writes the reading of the clock and its offset in hours and minutes.  A fraction is
written with three, six or nine digits, and only if it is not zero; an offset that is no whole
number of minutes is rounded to the nearest one, a half away from zero.

`Stamp.readRfc3339` reads it back.  The date and the time may be separated by `T`, `t` or a space,
the fraction may have any number of digits, of which the first nine count, and `Z` or `z` stands for
the offset zero.  The second 60 is a leap second, in any minute.
-/

namespace Recurrence.Stamp

/-! ### Writing -/

/-- The fraction of a second, by thousandths, millionths or billionths. -/
def fractionChars (nanos : Nat) : List Char :=
  if nanos = 0 then []
  else if nanos % 1000000 = 0 then '.' :: Text.padded 3 (nanos / 1000000)
  else if nanos % 1000 = 0 then '.' :: Text.padded 6 (nanos / 1000)
  else '.' :: Text.padded 9 nanos

/-- An offset as sign, hours and minutes. -/
def offsetChars (offset : Int) : List Char :=
  let minutes := (offset.natAbs + 30) / 60
  (if offset < 0 then '-' else '+') :: Text.padded 2 (minutes / 60) ++
    ':' :: Text.padded 2 (minutes % 60)

/-- The text of a stamp. -/
def rfc3339 (stamp : Stamp) : String :=
  let nanos := stamp.instant.nanos
  String.ofList (stamp.wall.chars (nanos / 1000000000) ++ fractionChars (nanos % 1000000000) ++
    offsetChars stamp.offset)

/-! ### Reading -/

/-- Reads a number of exactly `width` digits. -/
def readFixed (width : Nat) (s : List Char) : Option (Nat × List Char) :=
  let front := s.take width
  if front.length = width then (Text.readDigits front).map fun n => (n, s.drop width) else none

/-- Reads one of some characters. -/
def readMark (marks : List Char) : List Char → Option (List Char)
  | c :: s => if c ∈ marks then some s else none
  | [] => none

/-- Reads an optional fraction of a second, as nanoseconds. -/
def readFraction (s : List Char) : Option (Nat × List Char) :=
  match s with
  | '.' :: rest =>
    let digits := rest.takeWhile Char.isDigit
    let front := digits.take 9
    (Text.readDigits front).map fun n =>
      (n * Nat.pow 10 (9 - front.length), rest.drop digits.length)
  | _ => some (0, s)

/-- Reads hours and minutes as `HH:MM`, less than a day, in seconds. -/
def readHours (s : List Char) : Option (Int × List Char) := do
  let (hours, s) ← readFixed 2 s
  let s ← readMark [':'] s
  let (minutes, s) ← readFixed 2 s
  if hours < 24 ∧ minutes < 60 then some (hours * 3600 + minutes * 60, s) else none

/-- Reads an offset, in seconds; besides the hyphen, the minus sign is good for one to the west. -/
def readOffset (s : List Char) : Option (Int × List Char) :=
  match s with
  | 'Z' :: rest => some (0, rest)
  | 'z' :: rest => some (0, rest)
  | sign :: rest =>
    if sign = '+' then readHours rest
    else if sign = '-' ∨ sign = '\u2212' then (readHours rest).map fun (east, rest) => (-east, rest)
    else none
  | [] => none

/-- Reads a date as `YYYY-MM-DD`. -/
def readDate (s : List Char) : Option (Calendar.Date × List Char) := do
  let (year, s) ← readFixed 4 s
  let s ← readMark ['-'] s
  let (month, s) ← readFixed 2 s
  let s ← readMark ['-'] s
  let (day, s) ← readFixed 2 s
  return (⟨year, month, day⟩, s)

/-- Reads a time as `HH:MM:SS`. -/
def readTime (s : List Char) : Option ((Nat × Nat × Nat) × List Char) := do
  let (hour, s) ← readFixed 2 s
  let s ← readMark [':'] s
  let (minute, s) ← readFixed 2 s
  let s ← readMark [':'] s
  let (second, s) ← readFixed 2 s
  return ((hour, minute, second), s)

/-- The stamp that a text stands for. -/
def readRfc3339 (s : List Char) : Option Stamp := do
  let (date, s) ← readDate s
  let s ← readMark ['T', 't', ' '] s
  let ((hour, minute, second), s) ← readTime s
  let (nanos, s) ← readFraction s
  let (offset, s) ← readOffset s
  let leap := second = 60
  let wall : Calendar.WallTime := ⟨date, hour, minute, if leap then 59 else second⟩
  if s = [] ∧ wall.IsValid then
    return ⟨⟨wall.seconds - offset, nanos + if leap then 1000000000 else 0⟩, offset⟩
  else none

/-- A reading written as `YYYY-MM-DDTHH:MM:SS`. -/
def readWall (s : List Char) : Option Calendar.WallTime := do
  let (date, s) ← readDate s
  let s ← readMark ['T'] s
  let ((hour, minute, second), s) ← readTime s
  let wall : Calendar.WallTime := ⟨date, hour, minute, second⟩
  if s = [] ∧ wall.IsValid then return wall else none

end Recurrence.Stamp
