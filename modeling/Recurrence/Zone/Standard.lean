import Recurrence.Zone.Basic
import Recurrence.Zone.Names
import Recurrence.Zone.Rules

/-!
# The standard zones

The database that a program uses has the names `ZoneNames.all` and the rules `ZoneRules.all`.  A zone for
which no rules are laid down shows UTC, and so does the machine.
-/

namespace Recurrence

/-- The zones of the program. -/
instance ZoneDatabase.standard : ZoneDatabase where
  names := ZoneNames.all
  clock name :=
    match ZoneRules.all.lookup name with
    | some rules => rules.clock
    | none => .fixed 0
  machineClock := .fixed 0
  toList_ne_nil _ h := ZoneNames.toList_ne_nil_of_mem_all h
  isBlank_eq_false _ h _ hc := ZoneNames.isBlank_of_mem_all h hc
  ne_local _ h := ZoneNames.ne_local_of_mem_all h

/-- Coordinated universal time. -/
def Zone.utc : Zone :=
  named "UTC" (List.mem_of_getElem? (i := 592) (by decide +kernel))

end Recurrence
