import Recurrence.Proofs.Search.Run

/-!
# The search by a clock that is never turned

By a steady clock every reading is shown at exactly one instant, and the readings follow one another
as the instants do.  So the search is exact (`Expression.nextBy_of_steady`): it finds the first
instant after the given one at which the clock shows a match, and nothing only if there is none.
-/

namespace Recurrence

open Calendar

namespace Clock

variable {clock : Clock} {offset i wall : Int} {after : Instant}

/-- The clock always has the same offset. -/
def Steady (clock : Clock) (offset : Int) : Prop :=
  ∀ i, clock.offsetAt i = offset

theorem steady_fixed (offset : Int) : (fixed offset).Steady offset :=
  fun _ => rfl

theorem Steady.read_eq (h : clock.Steady offset) : clock.read i = i + offset := by
  rw [read, h i]

theorem Steady.mem_candidates (h : clock.Steady offset) :
    i ∈ clock.candidates wall ↔ i = wall - offset := by
  have hread : clock.read (wall - offset) = wall := by
    rw [h.read_eq]
    omega
  rw [mem_candidates_of_read hread, h.read_eq]
  omega

theorem Steady.instantAfter_eq_some_iff (h : clock.Steady offset) {stamp : Stamp} :
    clock.instantAfter wall after = some stamp ↔
      stamp = ⟨.ofSeconds (wall - offset), offset⟩ ∧ after.seconds < wall - offset := by
  rw [Clock.instantAfter_eq_some_iff]
  constructor
  · rintro ⟨i, rfl, ⟨hmem, hafter⟩, _⟩
    rw [h.mem_candidates] at hmem
    rw [hmem] at hafter ⊢
    exact ⟨by rw [Clock.stamp, h], hafter⟩
  · rintro ⟨rfl, hafter⟩
    refine ⟨wall - offset, by rw [Clock.stamp, h], ⟨h.mem_candidates.mpr rfl, hafter⟩, ?_⟩
    rintro j ⟨hmem, _⟩
    exact (h.mem_candidates.mp hmem).ge

end Clock

namespace Expression

variable [ZoneDatabase] {e : Expression} {clock : Clock} {limit : SearchLimit} {after : Instant}
  {stamp : Stamp} {offset : Int}

theorem isLeast_of_nextBy_eq_some (hwf : e.WellFormed) (hsteady : clock.Steady offset)
    (h : e.nextBy clock limit after = some stamp) :
    ∃ i, stamp = ⟨.ofSeconds i, offset⟩ ∧ IsLeast (e.matchesAfter clock after) i := by
  obtain ⟨wall, hwall, _, hstamp, hfirst⟩ := exists_of_nextBy_eq_some hwf h
  obtain ⟨rfl, hafter⟩ := hsteady.instantAfter_eq_some_iff.mp hstamp
  refine ⟨wall.seconds - offset, rfl, ⟨Instant.before_ofSeconds.mpr hafter, ?_⟩, ?_⟩
  · refine matchesAt_of_matches hwall ?_
    rw [hsteady.read_eq]
    omega
  · rintro j ⟨hj, hmatches⟩
    rw [Instant.before_ofSeconds] at hj
    -- the reading at another matching instant is a match that the search could have found
    have hlater := hfirst _ hmatches
    rw [WallTime.seconds_ofSeconds, hsteady.read_eq, hsteady.read_eq] at hlater
    have hlive : (clock.instantAfter (j + offset) after).isSome :=
      Option.isSome_of_eq_some (hsteady.instantAfter_eq_some_iff.mpr ⟨rfl, by omega⟩)
    have := hlater (by omega) hlive
    omega

theorem matchesAfter_eq_empty (hwf : e.WellFormed) (hsteady : clock.Steady offset)
    (hlimit : 100000 ≤ limit.maxPasses) (h : e.nextBy clock limit after = none) :
    e.matchesAfter clock after = ∅ := by
  refine Set.eq_empty_of_forall_notMem ?_
  rintro i ⟨hafter, hmatches⟩
  rw [Instant.before_ofSeconds] at hafter
  have hlive : ∀ wall, e.Matches wall → clock.read after.seconds < wall.seconds →
      (clock.instantAfter wall.seconds after).isSome := by
    intro wall _ hlater
    rw [hsteady.read_eq] at hlater
    exact Option.isSome_of_eq_some (hsteady.instantAfter_eq_some_iff.mpr ⟨rfl, by omega⟩)
  have hle := not_matches_of_nextBy_eq_none hwf hlimit hlive h hmatches
  rw [WallTime.seconds_ofSeconds, hsteady.read_eq, hsteady.read_eq] at hle
  omega

/-- By a steady clock a search finds the first instant after the given one at which the clock shows
a match, and nothing exactly if there is none. -/
theorem nextBy_of_steady {text : String} (parsed : parse text = .ok e)
    (hsteady : clock.Steady offset) (hlimit : 100000 ≤ limit.maxPasses) (after : Instant) :
    (∀ stamp, e.nextBy clock limit after = some stamp ↔
      ∃ i, stamp = ⟨.ofSeconds i, offset⟩ ∧ IsLeast (e.matchesAfter clock after) i) ∧
    (e.nextBy clock limit after = none ↔ e.matchesAfter clock after = ∅) := by
  have hwf := wellFormed_of_parse parsed
  refine ⟨fun stamp => ⟨isLeast_of_nextBy_eq_some hwf hsteady, ?_⟩,
    ⟨matchesAfter_eq_empty hwf hsteady hlimit, ?_⟩⟩
  · rintro ⟨i, rfl, hleast⟩
    cases h : e.nextBy clock limit after with
    | none =>
      have hempty := matchesAfter_eq_empty hwf hsteady hlimit h
      exact absurd (hempty ▸ hleast.1) (Set.notMem_empty i)
    | some found =>
      obtain ⟨j, rfl, hleast'⟩ := isLeast_of_nextBy_eq_some hwf hsteady h
      rw [hleast.unique hleast']
  · intro hempty
    cases h : e.nextBy clock limit after with
    | none => rfl
    | some found =>
      obtain ⟨j, _, hleast⟩ := isLeast_of_nextBy_eq_some hwf hsteady h
      exact absurd (hempty ▸ hleast.1) (Set.notMem_empty j)

end Expression

/-- The end of the next leap day, fourteen hours ahead of UTC, as asked within a leap second. -/
theorem Expression.nextBy_of_steady_leapDay : ∃ e, parse "*-2-29 23:59:59 Etc/GMT-14" = .ok e ∧
    e.zone.clock.Steady 50400 ∧
    e.nextBy e.zone.clock ⟨100000⟩ ⟨1483228799, 1500000000⟩ = some ⟨.ofSeconds 1582970399, 50400⟩ ∧
    IsLeast (e.matchesAfter e.zone.clock ⟨1483228799, 1500000000⟩) 1582970399 := by
  let e : Expression :=
    ⟨.all, ⟨.omitted .years, ⟨[⟨2, none, none⟩]⟩, ⟨[⟨29, none, none⟩]⟩⟩,
      ⟨⟨[⟨23, none, none⟩]⟩, ⟨[⟨59, none, none⟩]⟩, ⟨[⟨59, none, none⟩]⟩⟩,
      .named "Etc/GMT-14" (by decide +kernel)⟩
  have parsed : parse "*-2-29 23:59:59 Etc/GMT-14" = .ok e := by decide +kernel
  have hclock : e.zone.clock = .fixed 50400 := by decide +kernel
  have hsteady : e.zone.clock.Steady 50400 := hclock ▸ Clock.steady_fixed 50400
  have found : e.nextBy e.zone.clock ⟨100000⟩ ⟨1483228799, 1500000000⟩
      = some ⟨.ofSeconds 1582970399, 50400⟩ := by
    decide +kernel
  have hlimit : 100000 ≤ (SearchLimit.mk 100000).maxPasses := by decide
  obtain ⟨hsome, _⟩ := nextBy_of_steady parsed hsteady hlimit ⟨1483228799, 1500000000⟩
  obtain ⟨i, hi, hleast⟩ := (hsome _).mp found
  obtain rfl : 1582970399 = i := congrArg (fun stamp => stamp.instant.seconds) hi
  exact ⟨e, parsed, hsteady, found, hleast⟩

end Recurrence
