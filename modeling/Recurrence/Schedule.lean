import Recurrence.Expression.Text
import Recurrence.Search.Basic

/-!
# Schedules

A `Schedule` is a list of expressions, its members.  Its next occurrence is the earliest one of a
member; if several members have the same instant, the first of them decides in which zone it is
shown.

As text, a schedule has one member per line.  Lines of blanks are skipped but counted, so an error
names the line where it is.
-/

namespace Recurrence

variable [ZoneDatabase]

/-- A list of expressions. -/
structure Schedule where
  members : List Expression
deriving DecidableEq

namespace Schedule

/-! ### The members -/

/-- The schedule without members. -/
def empty : Schedule := ⟨[]⟩

/-- The schedule with one more member at the end. -/
def push (schedule : Schedule) (e : Expression) : Schedule :=
  ⟨schedule.members ++ [e]⟩

/-- The member at an index. -/
def get? (schedule : Schedule) (index : Nat) : Option Expression :=
  schedule.members[index]?

/-- The member at an index, and the schedule without it. -/
def remove? (schedule : Schedule) (index : Nat) : Option (Expression × Schedule) :=
  (schedule.get? index).map fun e => (e, ⟨schedule.members.eraseIdx index⟩)

/-- The number of members. -/
def size (schedule : Schedule) : Nat :=
  schedule.members.length

/-! ### Occurrences -/

/-- The earliest of some stamps; the first one of those at the same instant. -/
def earliest : List Stamp → Option Stamp
  | [] => none
  | stamp :: rest =>
    match earliest rest with
    | none => some stamp
    | some other => if other.instant.Before stamp.instant then some other else some stamp

/-- The earliest occurrence of a member after an instant. -/
def nextWithin (limit : SearchLimit) (schedule : Schedule) (after : Instant) : Option Stamp :=
  earliest (schedule.members.filterMap fun e => e.nextWithin limit after)

/-- The earliest occurrence of a member after an instant, under the default limit. -/
def next (schedule : Schedule) (after : Instant) : Option Stamp :=
  schedule.nextWithin .default after

/-- The first `count` occurrences after an instant. -/
def occurrences (schedule : Schedule) (after : Instant) (count : Nat) : List Stamp :=
  successive schedule.next count after

/-! ### Text -/

/-- Reads the members from lines, the first of which has the given number. -/
def readLines (number : Nat) : List (List Char) → Except ParseError (List Expression)
  | [] => .ok []
  | line :: rest =>
    if Text.isBlankLine line then readLines (number + 1) rest
    else
      match Expression.read line with
      | .error cause => .error (.inMember number cause)
      | .ok e => (readLines (number + 1) rest).map (e :: ·)

/-- Reads a schedule. -/
def read (s : List Char) : Except ParseError Schedule :=
  (readLines 0 (s.splitOn '\n')).map Schedule.mk

/-- The schedule that a text stands for. -/
def parse (s : String) : Except ParseError Schedule :=
  read s.toList

/-- The schedule of some expressions, each a text of its own. -/
def collect (texts : List String) : Except ParseError Schedule :=
  (texts.mapM Expression.parse).map Schedule.mk

/-- What is said when a text that has to be a schedule is none. -/
def rejection (cause : ParseError) : String :=
  "invalid schedule: " ++ cause.message

/-- The characters of the canonical text. -/
def chars (schedule : Schedule) : List Char :=
  ['\n'].intercalate (schedule.members.map Expression.chars)

/-- The canonical text. -/
def text (schedule : Schedule) : String :=
  String.ofList schedule.chars

end Schedule

end Recurrence
