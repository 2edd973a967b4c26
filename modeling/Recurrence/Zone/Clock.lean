import Recurrence.Instant.Basic

/-!
# Clocks that are turned

A `Clock` shows the time of a zone: it starts with one offset from UTC and takes on another one at
each of finitely many instants.  Seconds stand for instants here, and wall-clock readings are
places on the line of `WallTime.seconds`.

In one direction a clock is a function (`Clock.read`).  In the other, a reading is shown at no
instant if the clock was turned forward over it, and at two if it was turned back over it
(`Clock.instantsReading`).  `Clock.instantAfter` picks one: the first one after a given instant,
and for a skipped reading the instant that the clock would have shown it at, had it not been
turned.
-/

namespace Recurrence

/-- The turning of a clock: from this instant on it has this offset. -/
structure Transition where
  instant : Int
  offset : Int
deriving DecidableEq

/-- The offset that a clock starts with and its transitions, in ascending order. -/
structure Clock where
  initial : Int
  transitions : List Transition
deriving DecidableEq

namespace Clock

/-- A clock that is never turned. -/
def fixed (offset : Int) : Clock :=
  ⟨offset, []⟩

/-- A transition put at its place among others, which are in ascending order. -/
def insert (t : Transition) : List Transition → List Transition
  | [] => [t]
  | u :: rest => if t.instant ≤ u.instant then t :: u :: rest else u :: insert t rest

/-- The clock that is also turned by one more transition. -/
def turn (t : Transition) (clock : Clock) : Clock :=
  ⟨clock.initial, insert t clock.transitions⟩

/-- The offset at an instant, given the one before the first transition. -/
def offsetThrough (offset : Int) (instant : Int) : List Transition → Int
  | [] => offset
  | t :: rest =>
    if t.instant ≤ instant then offsetThrough t.offset instant rest else offset

/-- The offset at an instant. -/
def offsetAt (clock : Clock) (instant : Int) : Int :=
  offsetThrough clock.initial instant clock.transitions

/-- What the clock shows at an instant. -/
def read (clock : Clock) (instant : Int) : Int :=
  instant + clock.offsetAt instant

/-- Every offset that the clock ever has, once. -/
def offsets (clock : Clock) : List Int :=
  (clock.initial :: clock.transitions.map Transition.offset).eraseDups

/-- The instants at which the clock shows a reading. -/
def instantsReading (clock : Clock) (wall : Int) : List Int :=
  (clock.offsets.map (wall - ·)).filter fun instant => clock.read instant = wall

/-- The instant of a skipped reading: the offset in force before the jump is the one of a day
earlier, where the reading is taken as if it were in UTC. -/
def instantOfSkipped (clock : Clock) (wall : Int) : Int :=
  wall - clock.offsetAt (wall - 86400)

/-- The instants that a reading may stand for. -/
def candidates (clock : Clock) (wall : Int) : List Int :=
  match clock.instantsReading wall with
  | [] => [clock.instantOfSkipped wall]
  | instants => instants

/-- A second with the offset of the clock. -/
def stamp (clock : Clock) (seconds : Int) : Stamp :=
  ⟨.ofSeconds seconds, clock.offsetAt seconds⟩

/-- The first instant after a given one that a reading may stand for. -/
def instantAfter (clock : Clock) (wall : Int) (after : Instant) : Option Stamp :=
  ((clock.candidates wall).filter fun i => after.Before (.ofSeconds i)).min?.map clock.stamp

end Clock

end Recurrence
