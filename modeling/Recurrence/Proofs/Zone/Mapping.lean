import Recurrence.Proofs.Zone.Standard

/-!
# The instant that a reading is mapped to

By a clock that is turned seldom, every reading is either shown, at two instants at most
(`Clock.Spaced.read_ne`), or skipped by one jump.  `Clock.instantAfter` maps a reading that is shown to the
first instant after the given one that shows it, and a skipped one to the instant that would have shown it,
had the clock not been turned (`Clock.Spaced.instantAfter_cases`).  That instant lies behind the jump and
shows a reading that is later by as much as the clock was turned
(`Clock.Spaced.read_instantOfSkipped`).
-/

namespace Recurrence

namespace Clock

variable {clock : Clock} {after : Instant} {i j k t w : Int} {stamp : Stamp}

/-! ### Readings that are shown -/

/-- The instants after a given one that show a reading. -/
def showsAfter (clock : Clock) (wall : Int) (after : Instant) : Set Int :=
  {i | clock.read i = wall ∧ after.Before (.ofSeconds i)}

theorem candidatesAfter_of_read (h : clock.read i = w) :
    clock.candidatesAfter w after = clock.showsAfter w after := by
  ext j
  exact and_congr (mem_candidates_of_read h) Instant.before_ofSeconds.symm

theorem instantAfter_eq_some_iff_of_read (h : clock.read i = w) :
    clock.instantAfter w after = some stamp ↔
      ∃ j, stamp = clock.stamp j ∧ IsLeast (clock.showsAfter w after) j := by
  rw [instantAfter_eq_some_iff, candidatesAfter_of_read h]

theorem instantAfter_eq_none_iff_of_read (h : clock.read i = w) :
    clock.instantAfter w after = none ↔ clock.showsAfter w after = ∅ := by
  rw [instantAfter_eq_none_iff, ← candidatesAfter_of_read h, Set.eq_empty_iff_forall_notMem]
  refine forall_congr' fun j => ?_
  rw [candidatesAfter, Set.mem_ofPred_eq, not_and, not_lt]

/-- What the clock shows at an instant stands for that instant, if one asks from the second before on. -/
theorem instantAfter_read (clock : Clock) (i : Int) :
    clock.instantAfter (clock.read i) (.ofSeconds (i - 1)) = some (clock.stamp i) := by
  refine (instantAfter_eq_some_iff_of_read rfl).mpr ⟨i, rfl, ⟨rfl, ?_⟩, ?_⟩
  · exact Instant.before_ofSeconds.mpr (Int.sub_one_lt_of_le le_rfl)
  · rintro j ⟨_, hj⟩
    exact Int.le_of_sub_one_lt (Instant.before_ofSeconds.mp hj)

namespace Spaced

/-- A reading is shown at two instants at most. -/
theorem read_ne (h : clock.Spaced) (hij : i < j) (hjk : j < k) (hi : clock.read i = w)
    (hj : clock.read j = w) : clock.read k ≠ w := by
  intro hk
  have hoffset := h.offsetAt_bounds i
  have hoffset' := h.offsetAt_bounds k
  unfold read at hi hj hk
  -- the clock would have to be turned back twice within two days
  have hback : clock.offsetAt i ≠ clock.offsetAt j := by omega
  have hback' : clock.offsetAt j ≠ clock.offsetAt k := by omega
  obtain ⟨s, his, hsj, hs⟩ := exists_turnedAt_of_ne hij.le hback
  obtain ⟨t, hjt, htk, ht⟩ := exists_turnedAt_of_ne hjk.le hback'
  have hfar := h.lt_of_turnedAt hs ht (by omega)
  omega

/-! ### Readings that are skipped -/

/-- What stands for a skipped reading shows a later one, by as much as the clock was turned. -/
theorem read_instantOfSkipped (h : clock.Spaced) (ht : clock.JumpsOver t w) :
    clock.read (clock.instantOfSkipped w)
      = w + (clock.offsetAt t - clock.offsetAt (t - 1)) := by
  have hoffset : clock.offsetAt (clock.instantOfSkipped w) = clock.offsetAt t :=
    h.offsetAt_eq_after ht.turnedAt (h.le_instantOfSkipped ht) (h.instantOfSkipped_lt ht).le
  rw [read, hoffset, h.instantOfSkipped_eq ht]
  omega

end Spaced

theorem instantAfter_of_skips (h : clock.Skips w) : clock.instantAfter w after =
    if after.Before (.ofSeconds (clock.instantOfSkipped w))
      then some (clock.stamp (clock.instantOfSkipped w)) else none := by
  by_cases hbefore : after.Before (.ofSeconds (clock.instantOfSkipped w))
  · simp [instantAfter, candidates_of_skips h, hbefore]
  · simp [instantAfter, candidates_of_skips h, hbefore]

/-! ### Every reading -/

/-- By a clock that is turned at most once in any two days a reading is shown at two instants at most, or the
clock jumps over it.  A reading that is shown is mapped to the first instant after the given one that shows
it.  One that is skipped by a jump from the offset `o` to the offset `o'` is mapped to the instant that would
have shown it, had the offset stayed the same, if that comes after the given one: it does not come before the
jump, and then the clock shows what it would have shown, moved on by the jump.  So every second is found again
by what the clock shows at it. -/
theorem Spaced.instantAfter_cases (h : clock.Spaced) (w : Int) (after : Instant) :
    (∀ i j k, i < j → j < k → clock.read i = w → clock.read j = w → clock.read k ≠ w) ∧
    ((∃ i, clock.read i = w) ∨ ∃ t, clock.JumpsOver t w) ∧
    (∀ i, clock.read i = w →
      (∀ stamp, clock.instantAfter w after = some stamp ↔
        ∃ j, stamp = clock.stamp j ∧ IsLeast (clock.showsAfter w after) j) ∧
      (clock.instantAfter w after = none ↔ clock.showsAfter w after = ∅)) ∧
    (∀ t o o', clock.JumpsOver t w → clock.offsetAt (t - 1) = o → clock.offsetAt t = o' →
      clock.Skips w ∧ t ≤ w - o ∧ clock.read (w - o) = w + (o' - o) ∧
      clock.instantAfter w after =
        if after.Before (.ofSeconds (w - o)) then some (clock.stamp (w - o)) else none) ∧
    ∀ i, clock.instantAfter (clock.read i) (.ofSeconds (i - 1)) = some (clock.stamp i) := by
  refine ⟨fun i j k => h.read_ne, ?kinds, fun i hread => ⟨fun stamp => ?_, ?_⟩, ?skipped,
    clock.instantAfter_read⟩
  case kinds =>
    by_cases hskips : clock.Skips w
    · exact .inr (h.exists_jumpsOver_of_skips hskips)
    · rw [Skips] at hskips
      push Not at hskips
      exact .inl hskips
  · exact instantAfter_eq_some_iff_of_read hread
  · exact instantAfter_eq_none_iff_of_read hread
  case skipped =>
    rintro t _ _ hjump rfl rfl
    have hskips := h.skips_of_jumpsOver hjump
    rw [← h.instantOfSkipped_eq hjump]
    exact ⟨hskips, h.le_instantOfSkipped hjump, h.read_instantOfSkipped hjump,
      instantAfter_of_skips hskips⟩

/-- Half past two in the night of the last Sunday of October is shown twice, that of the last Sunday of March
is skipped and stands for half past three. -/
theorem Spaced.instantAfter_cases_halfPastTwo :
    ∃ zone : Zone, zone.name = "Europe/Paris" ∧ zone.clock.Spaced ∧
      zone.clock.read 1729989000 = 1729996200 ∧
      IsLeast (zone.clock.showsAfter 1729996200 ⟨1729989000, 500000000⟩) 1729992600 ∧
      zone.clock.showsAfter 1729996200 (.ofSeconds 1729992600) = ∅ ∧
      zone.clock.JumpsOver 1711846800 1711852200 ∧
      zone.clock.instantAfter 1711852200 (.ofSeconds 1711848599)
        = some (zone.clock.stamp 1711848600) ∧
      zone.clock.instantAfter 1711852200 (.ofSeconds 1711848600) = none ∧
      zone.clock.read 1711848600 = 1711855800 := by
  let zone : Zone := .named "Europe/Paris" (List.mem_of_getElem? (i := 464) rfl)
  have hspaced : zone.clock.Spaced := zone.spaced_clock
  obtain ⟨hread, hwinter, hsummer, found, hnone⟩ : zone.clock.read 1729989000 = 1729996200 ∧
      zone.clock.offsetAt (1711846800 - 1) = 3600 ∧ zone.clock.offsetAt 1711846800 = 7200 ∧
      zone.clock.instantAfter 1729996200 ⟨1729989000, 500000000⟩
        = some ⟨.ofSeconds 1729992600, 3600⟩ ∧
      zone.clock.instantAfter 1729996200 (.ofSeconds 1729992600) = none := by
    decide +kernel
  -- the reading that is shown twice
  obtain ⟨_, _, hshown, _⟩ := hspaced.instantAfter_cases 1729996200 ⟨1729989000, 500000000⟩
  obtain ⟨j, hj, hleast⟩ := ((hshown _ hread).1 _).mp found
  obtain rfl : 1729992600 = j := congrArg (fun stamp => stamp.instant.seconds) hj
  obtain ⟨_, _, hshown', _⟩ := hspaced.instantAfter_cases 1729996200 (.ofSeconds 1729992600)
  have hempty := (hshown' _ hread).2.mp hnone
  -- the one that is skipped
  have hjump : zone.clock.JumpsOver 1711846800 1711852200 :=
    ⟨by rw [read, hwinter]; decide, by rw [read, hsummer]; decide⟩
  obtain ⟨_, _, _, hskipped, _⟩ := hspaced.instantAfter_cases 1711852200 (.ofSeconds 1711848599)
  obtain ⟨_, _, hlater, hbefore⟩ := hskipped _ _ _ hjump hwinter hsummer
  obtain ⟨_, _, _, hskipped', _⟩ := hspaced.instantAfter_cases 1711852200 (.ofSeconds 1711848600)
  obtain ⟨_, _, _, hafter⟩ := hskipped' _ _ _ hjump hwinter hsummer
  rw [if_pos (by decide)] at hbefore
  rw [if_neg (by decide)] at hafter
  exact ⟨zone, rfl, hspaced, hread, hleast, hempty, hjump, hbefore, hafter, hlater⟩

end Clock

end Recurrence
