import Recurrence.Expression.Basic
import Recurrence.Search.Cursor

/-!
# The search for the next occurrence

The search looks for the first reading after a given one that matches an expression.  It goes
through the units from the coarsest to the finest and moves each to the next value of its series
(`step`).  A unit that moves on sets the finer ones back to their least values.  A unit that has
no value left starts over and carries one into the next coarser unit, and the pass has to begin
again at the year; only a year that is used up ends the search.

A reading that matches may still stand for no instant after the given one, if the clock was turned
back; then the search goes on from the next second.  The number of passes is limited.
-/

namespace Recurrence

variable [ZoneDatabase]

namespace Search

open Calendar

/-- What comes of one stage, or of a whole pass. -/
inductive Step where
  /-- The unit has a value of its series, and so have the coarser ones. -/
  | settled (cursor : Cursor)
  /-- Something was carried, so the units have to be gone through again. -/
  | restart (cursor : Cursor)
  /-- No reading is left. -/
  | exhausted
deriving DecidableEq

/-- Moves a unit to the next value of its series.  If that starts over, `carry` decides. -/
def place (stage : Stage) (next : Option Successor) (put : Nat → Cursor)
    (carry : Cursor → Step) : Step :=
  match next with
  | none => .exhausted
  | some next =>
    if next.wrapped then carry (put next.value)
    else if next.advanced then .settled ((put next.value).clearBelow stage)
    else .settled (put next.value)

/-- The stage of the day.  If the month is too short for every day of the series, the search goes on
with the first day of the next month. -/
def placeDay (e : Expression) (c : Cursor) : Step :=
  match e.date.days.next? c.day (daysInMonth c.year c.month) with
  | none =>
    if (e.date.days.values Field.days.max).isEmpty then .exhausted
    else .restart (Cursor.clearBelow .day { c with month := c.month + 1, day := Field.days.min })
  | next =>
    place .day next (fun day => { c with day })
      fun c => .restart (Cursor.clearBelow .day { c with month := c.month + 1 })

/-- The stage of the weekday, which can only be changed through the day. -/
def placeWeekday (e : Expression) (c : Cursor) : Step :=
  match c.date? with
  | none => .exhausted
  | some date =>
    if e.weekdays.contains date.weekday then .settled c
    else .restart (Cursor.clearBelow .weekday { c with day := c.day + 1 })

/-- One stage of a pass. -/
def step (e : Expression) (stage : Stage) (c : Cursor) : Step :=
  match stage with
  | .year =>
    place .year (e.date.years.next? c.year Field.years.max) (fun year => { c with year })
      fun _ => .exhausted
  | .month =>
    place .month (e.date.months.next? c.month Field.months.max) (fun month => { c with month })
      fun c => .restart (Cursor.clearBelow .month { c with year := c.year + 1 })
  | .day => placeDay e c
  | .weekday => placeWeekday e c
  | .hour =>
    place .hour (e.time.hours.next? c.hour Field.hours.max) (fun hour => { c with hour })
      fun c => .restart (Cursor.clearBelow .hour { c with day := c.day + 1 })
  | .minute =>
    place .minute (e.time.minutes.next? c.minute Field.minutes.max)
      (fun minute => { c with minute })
      fun c => .restart (Cursor.clearBelow .minute { c with hour := c.hour + 1 })
  | .second =>
    place .second (e.time.seconds.next? c.second Field.seconds.max)
      (fun second => { c with second })
      fun c => .restart { c with minute := c.minute + 1 }

/-- The remaining stages of a pass, until one of them is not settled. -/
def descend (e : Expression) : List Stage → Cursor → Step
  | [], c => .settled c
  | stage :: rest, c =>
    match step e stage c with
    | .settled c => descend e rest c
    | other => other

/-- One pass through all units. -/
def pass (e : Expression) (c : Cursor) : Step :=
  descend e Stage.all c

/-- The search with a number of passes left. -/
def run (e : Expression) (clock : Clock) (after : Instant) : Nat → Cursor → Option Stamp
  | 0, _ => none
  | passes + 1, c =>
    match pass e c with
    | .exhausted => none
    | .restart c => run e clock after passes c
    | .settled c =>
      match c.wall? with
      | none => none
      | some wall =>
        match clock.instantAfter wall.seconds after with
        | some stamp => some stamp
        | none => run e clock after passes { c with second := c.second + 1 }

end Search

/-- The number of passes after which a search gives up. -/
structure SearchLimit where
  maxPasses : Nat
deriving DecidableEq

namespace SearchLimit

/-- The limit of a search for which none is given. -/
def default : SearchLimit := ⟨500⟩

/-- The passes that are made: the first one in any case, and each restart counts before it is
compared with the limit. -/
def passes (limit : SearchLimit) : Nat :=
  max limit.maxPasses 1

end SearchLimit

/-- The stamps that a search finds one after the other, at most `count` of them. -/
def successive (next : Instant → Option Stamp) : Nat → Instant → List Stamp
  | 0, _ => []
  | count + 1, after =>
    match next after with
    | none => []
    | some stamp => stamp :: successive next count stamp.instant

namespace Expression

/-- The first occurrence after an instant, by the readings of a given clock. -/
def nextBy (clock : Clock) (limit : SearchLimit) (e : Expression) (after : Instant) :
    Option Stamp :=
  Search.run e clock after limit.passes
    (.startingAfter (.ofSeconds (clock.read after.seconds)))

/-- The first occurrence after an instant, by the clock of the zone of the expression. -/
def nextWithin (limit : SearchLimit) (e : Expression) (after : Instant) : Option Stamp :=
  e.nextBy e.zone.clock limit after

/-- The first occurrence after an instant, under the default limit. -/
def next (e : Expression) (after : Instant) : Option Stamp :=
  e.nextWithin .default after

/-- The first `count` occurrences after an instant. -/
def occurrences (limit : SearchLimit) (e : Expression) (after : Instant) (count : Nat) :
    List Stamp :=
  successive (e.nextWithin limit) count after

end Expression

end Recurrence
