import Recurrence.Zone.Basic

/-!
# Zones and their names

A zone is found by its own name (`Zone.resolve_name`), and no name is empty or holds a blank
(`Zone.toList_name_ne_nil`, `Zone.isBlank_of_mem_name`).  Where names are words with letters in them, none
can be taken for a date or a time (`ZoneDatabase.Lettered`).
-/

namespace Recurrence

variable [ZoneDatabase]

/-- No name has a colon, and each has a character that comes behind the colon, as letters do and digits
and hyphens do not. -/
class ZoneDatabase.Lettered : Prop where
  colon_not_mem : ∀ name ∈ ZoneDatabase.names, ':' ∉ name.toList
  exists_colon_lt : ∀ name ∈ ZoneDatabase.names, ∃ c ∈ name.toList, ':' < c

namespace Zone

theorem toList_name_ne_nil (zone : Zone) : zone.name.toList ≠ [] := by
  cases zone with
  | machine => exact (by decide : "Local".toList ≠ [])
  | named name known => exact ZoneDatabase.toList_ne_nil name known

theorem isBlank_of_mem_name {zone : Zone} {c : Char} (hc : c ∈ zone.name.toList) :
    Text.isBlank c = false := by
  cases zone with
  | machine =>
    have hall : "Local".toList.all (fun c => !Text.isBlank c) = true := by decide
    simpa using List.all_eq_true.mp hall c hc
  | named name known => exact ZoneDatabase.isBlank_eq_false name known c hc

/-- Every zone is found by its name. -/
theorem resolve_name (zone : Zone) : resolve zone.name = .ok zone := by
  cases zone with
  | machine => rfl
  | named name known =>
    rw [Zone.name, resolve, if_neg (ZoneDatabase.ne_local name known), dif_pos known]

end Zone

end Recurrence
