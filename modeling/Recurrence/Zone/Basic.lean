import Recurrence.ParseError
import Recurrence.Zone.Database

/-!
# Zones

A `Zone` is that of the machine, written `Local`, or one with a name from the database.  Two zones are
equal only if their names are, even where their clocks agree.
-/

namespace Recurrence

variable [ZoneDatabase]

/-- Where an expression is evaluated. -/
inductive Zone where
  | machine
  | named (name : String) (known : name ∈ ZoneDatabase.names)
deriving DecidableEq

namespace Zone

/-- The name of a zone. -/
def name : Zone → String
  | machine => "Local"
  | named name _ => name

/-- The zone with a given name. -/
def resolve (name : String) : Except ParseError Zone :=
  if name = "Local" then .ok machine
  else if known : name ∈ ZoneDatabase.names then .ok (named name known)
  else .error (.unknownZone name)

/-- The clock of a zone. -/
def clock : Zone → Clock
  | machine => ZoneDatabase.machineClock
  | named name _ => ZoneDatabase.clock name

end Zone

end Recurrence
