import Recurrence.Proofs.Text.Utf8
import Recurrence.Proofs.Zone.Names
import Recurrence.Proofs.Zone.Rule
import Recurrence.Zone.Standard

/-!
# The standard zones

The names of the standard zones have letters and no colon (`ZoneNames.isLettered_of_mem_all`), and each of
the clocks is turned at most once in any two days (`Zone.spaced_clock`).
-/

namespace Recurrence

namespace ZoneNames

/-- A name that has no colon in it, but a byte behind that of the colon, as letters have. -/
def isLettered (name : String) : Bool :=
  let bytes := name.toByteArray.data.toList
  bytes.all (·.toNat != 0x3A) && bytes.any (0x3A < ·.toNat)

theorem isLettered_of_mem_all {name : String} (h : name ∈ all) : isLettered name = true := by
  have hall : all.all isLettered = true := by decide +kernel
  exact List.all_eq_true.mp hall name h

theorem colon_not_mem_of_mem_all {name : String} (h : name ∈ all) : ':' ∉ name.toList := by
  intro hcolon
  have hlettered := isLettered_of_mem_all h
  simp only [isLettered, toList_data_toByteArray, Bool.and_eq_true] at hlettered
  have hbyte : (0x3A : UInt8) ∈ name.toList.flatMap String.utf8EncodeChar :=
    List.mem_flatMap.mpr ⟨':', hcolon, by decide⟩
  exact absurd (List.all_eq_true.mp hlettered.1 _ hbyte) (by decide)

/-- There is a character behind the colon in every name. -/
theorem exists_colon_lt_of_mem_all {name : String} (h : name ∈ all) : ∃ c ∈ name.toList, ':' < c := by
  have hlettered := isLettered_of_mem_all h
  simp only [isLettered, toList_data_toByteArray, Bool.and_eq_true] at hlettered
  obtain ⟨b, hb, hlt⟩ := List.any_eq_true.mp hlettered.2
  obtain ⟨c, hc, hbc⟩ := List.mem_flatMap.mp hb
  refine ⟨c, hc, Char.not_le.mp fun hle => ?_⟩
  have hle : c.toNat ≤ 0x3A := hle
  rw [Text.utf8EncodeChar_of_lt (by omega), List.mem_singleton] at hbc
  rw [hbc, UInt8.toNat_ofNat', decide_eq_true_eq] at hlt
  omega

end ZoneNames

instance : ZoneDatabase.Lettered where
  colon_not_mem _ h := ZoneNames.colon_not_mem_of_mem_all h
  exists_colon_lt _ h := ZoneNames.exists_colon_lt_of_mem_all h

theorem ZoneRules.apart_of_mem_all : ∀ entry ∈ all, entry.2.Apart := by
  decide +kernel

/-- The clock of every zone is turned at most once in any two days. -/
theorem Zone.spaced_clock (zone : Zone) : zone.clock.Spaced := by
  have hfixed : (Clock.fixed 0).Spaced := ⟨by decide, List.Pairwise.nil⟩
  cases zone with
  | machine => exact hfixed
  | named name known =>
    simp only [clock, ZoneDatabase.clock]
    cases hlookup : ZoneRules.all.lookup name with
    | some rules =>
      obtain ⟨before, rest, hall, _⟩ := List.lookup_eq_some_iff.mp hlookup
      have hmem : (name, rules) ∈ ZoneRules.all := by
        rw [hall]
        exact List.mem_append_right _ (List.mem_cons_self ..)
      exact (ZoneRules.apart_of_mem_all _ hmem).spaced_clock
    | none => exact hfixed

end Recurrence
