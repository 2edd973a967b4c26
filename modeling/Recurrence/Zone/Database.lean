import Recurrence.Text.Blank
import Recurrence.Zone.Clock

/-!
# Databases of zones

Which zones there are and how their clocks are turned is laid down outside of this library, and changes
from year to year.  So the zones are taken from a `ZoneDatabase`, of which only this is asked: a name
is a word, and `Local` is the name of the zone of the machine alone.
-/

namespace Recurrence

/-- The zones that are known by a name, and the clocks of all zones. -/
class ZoneDatabase where
  /-- The names of the zones, apart from that of the zone of the machine. -/
  names : List String
  /-- The clock of the zone with a name. -/
  clock : String → Clock
  /-- The clock of the zone of the machine. -/
  machineClock : Clock
  toList_ne_nil : ∀ name ∈ names, name.toList ≠ []
  isBlank_eq_false : ∀ name ∈ names, ∀ c ∈ name.toList, Text.isBlank c = false
  ne_local : ∀ name ∈ names, name ≠ "Local"

end Recurrence
