import Mathlib.Order.Bounds.Basic
import Mathlib.Tactic.SplitIfs
import Recurrence.Zone.Clock

/-!
# From readings back to instants

`Clock.instantsReading` lists exactly the instants that show a reading
(`Clock.mem_instantsReading`), and `Clock.instantAfter` is the least one after a given instant among
those that the reading may stand for (`Clock.instantAfter_eq_some_iff`): the instants that show it,
or the one instant that stands for it if it is skipped.
-/

namespace Recurrence

/-- A second starts after an instant if its number is greater: no fraction, and no leap second,
reaches into the next one. -/
theorem Instant.before_ofSeconds {after : Instant} {i : Int} :
    after.Before (.ofSeconds i) ↔ after.seconds < i := by
  simp [Before, ofSeconds]

namespace Clock

variable {clock : Clock} {after : Instant} {wall i : Int} {stamp : Stamp}

/-! ### The instants of a reading -/

theorem offsetThrough_mem (offset instant : Int) (transitions : List Transition) :
    offsetThrough offset instant transitions ∈ offset :: transitions.map Transition.offset := by
  induction transitions generalizing offset with
  | nil => exact List.mem_cons_self ..
  | cons t rest ih =>
    unfold offsetThrough
    split_ifs
    · exact List.mem_cons_of_mem _ (ih t.offset)
    · exact List.mem_cons_self ..

theorem offsetAt_mem_offsets (clock : Clock) (instant : Int) :
    clock.offsetAt instant ∈ clock.offsets :=
  List.mem_eraseDups.mpr (offsetThrough_mem _ _ _)

/-- A reading is shown at the instants that are listed for it, and at no other. -/
theorem mem_instantsReading : i ∈ clock.instantsReading wall ↔ clock.read i = wall := by
  simp only [instantsReading, List.mem_filter, List.mem_map, decide_eq_true_eq]
  refine ⟨fun h => h.2, fun h => ⟨⟨clock.offsetAt i, clock.offsetAt_mem_offsets i, ?_⟩, h⟩⟩
  unfold read at h
  omega

/-- No instant shows the reading, since the clock is turned forward over it. -/
def Skips (clock : Clock) (wall : Int) : Prop :=
  ∀ i, clock.read i ≠ wall

theorem instantsReading_eq_nil_iff : clock.instantsReading wall = [] ↔ clock.Skips wall := by
  rw [List.eq_nil_iff_forall_not_mem]
  exact forall_congr' fun i => not_congr mem_instantsReading

theorem mem_candidates_of_read (h : clock.read i = wall) {j : Int} :
    j ∈ clock.candidates wall ↔ clock.read j = wall := by
  have hne : clock.instantsReading wall ≠ [] := List.ne_nil_of_mem (mem_instantsReading.mpr h)
  unfold candidates
  split
  next hnil => exact absurd hnil hne
  next => exact mem_instantsReading

/-- A reading that is not skipped is shown at every instant that it may stand for. -/
theorem read_of_mem_candidates (h : ¬clock.Skips wall) (hi : i ∈ clock.candidates wall) :
    clock.read i = wall := by
  rw [Skips] at h
  push Not at h
  obtain ⟨j, hj⟩ := h
  exact (mem_candidates_of_read hj).mp hi

theorem candidates_of_skips (h : clock.Skips wall) :
    clock.candidates wall = [clock.instantOfSkipped wall] := by
  rw [candidates, instantsReading_eq_nil_iff.mpr h]

theorem mem_candidates_of_skips (h : clock.Skips wall) :
    i ∈ clock.candidates wall ↔ i = clock.instantOfSkipped wall := by
  rw [candidates_of_skips h, List.mem_singleton]

/-! ### The first instant after a given one -/

/-- The instants after a given one that a reading may stand for. -/
def candidatesAfter (clock : Clock) (wall : Int) (after : Instant) : Set Int :=
  {i | i ∈ clock.candidates wall ∧ after.seconds < i}

theorem instantAfter_eq_some_iff : clock.instantAfter wall after = some stamp ↔
    ∃ i, stamp = clock.stamp i ∧ IsLeast (clock.candidatesAfter wall after) i := by
  have hmem (i : Int) : i ∈ (clock.candidates wall).filter (fun i => after.Before (.ofSeconds i)) ↔
      i ∈ clock.candidatesAfter wall after := by
    simp [candidatesAfter, Instant.before_ofSeconds]
  unfold instantAfter
  simp only [Option.map_eq_some_iff, List.min?_eq_some_iff, hmem]
  exact exists_congr fun i => and_comm.trans (and_congr_left' eq_comm)

theorem instantAfter_eq_none_iff :
    clock.instantAfter wall after = none ↔ ∀ i ∈ clock.candidates wall, i ≤ after.seconds := by
  simp [instantAfter, List.filter_eq_nil_iff, Instant.before_ofSeconds]

theorem instantAfter_isSome_iff : (clock.instantAfter wall after).isSome ↔
    ∃ i ∈ clock.candidates wall, after.seconds < i := by
  rw [← Option.ne_none_iff_isSome, Ne, instantAfter_eq_none_iff]
  push Not
  exact Iff.rfl

theorem eq_stamp_of_skips (h : clock.Skips wall) (hstamp : clock.instantAfter wall after = some stamp) :
    stamp = clock.stamp (clock.instantOfSkipped wall) := by
  obtain ⟨i, rfl, ⟨hmem, _⟩, _⟩ := instantAfter_eq_some_iff.mp hstamp
  rw [(mem_candidates_of_skips h).mp hmem]

end Clock

end Recurrence
