import Recurrence.Calendar.WallTime

/-!
# Instants

An `Instant` is a point in time, by seconds since 1970-01-01T00:00:00 UTC and nanoseconds.  A leap
second is the second after the one that it follows, so it shares the number of that second and
has 10^9 nanoseconds or more.  A `Stamp` is an instant with the offset in which it is shown.
-/

namespace Recurrence

/-- A point in time. -/
structure Instant where
  seconds : Int
  nanos : Nat
deriving DecidableEq

namespace Instant

/-- Whether an instant comes before another one. -/
def Before (a b : Instant) : Prop :=
  a.seconds < b.seconds ∨ a.seconds = b.seconds ∧ a.nanos < b.nanos

instance (a b : Instant) : Decidable (a.Before b) :=
  inferInstanceAs (Decidable (_ ∨ _))

/-- The start of a second. -/
def ofSeconds (seconds : Int) : Instant :=
  ⟨seconds, 0⟩

end Instant

/-- An instant, and the offset from UTC, in seconds, of the clock that shows it. -/
structure Stamp where
  instant : Instant
  offset : Int
deriving DecidableEq

namespace Stamp

/-- What the clock shows. -/
def wall (stamp : Stamp) : Calendar.WallTime :=
  .ofSeconds (stamp.instant.seconds + stamp.offset)

end Stamp

end Recurrence
