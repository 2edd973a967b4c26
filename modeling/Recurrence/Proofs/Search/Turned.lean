import Mathlib.Data.Int.LeastGreatest
import Recurrence.Proofs.Search.Run
import Recurrence.Proofs.Zone.Standard

/-!
# The search by a clock that is turned

The search goes forward from what the clock shows, so it finds an instant for the first matching
reading after that (`Expression.nextBy_of_spaced`).  This need not be the first matching instant.
`Expression.passesOver_iff` says exactly when one is passed over: if the clock is turned back before it,
so that it shows a reading at which the search has been already, or if the first matching reading is
skipped and the instant that stands for it lies beyond.
-/

namespace Recurrence

open Calendar

namespace Expression

variable [ZoneDatabase] {e : Expression} {clock : Clock} {limit : SearchLimit} {after : Instant}

/-- The matching readings later than a given one. -/
def readingsAfter (e : Expression) (reading : Int) : Set Int :=
  {w | reading < w ∧ e.Matches (.ofSeconds w)}

/-- A search finds an instant for the first matching reading, if there is one. -/
theorem nextBy_of_spaced (hwf : e.WellFormed) (hspaced : clock.Spaced)
    (hlimit : 100000 ≤ limit.maxPasses) :
    (∃ w stamp, IsLeast (e.readingsAfter (clock.read after.seconds)) w ∧
      clock.instantAfter w after = some stamp ∧ e.nextBy clock limit after = some stamp) ∨
    e.readingsAfter (clock.read after.seconds) = ∅ ∧ e.nextBy clock limit after = none := by
  cases h : e.nextBy clock limit after with
  | some stamp =>
    obtain ⟨wall, hwall, hlater, hstamp, hfirst⟩ := exists_of_nextBy_eq_some hwf h
    refine .inl ⟨wall.seconds, stamp, ⟨⟨hlater, ?_⟩, ?_⟩, hstamp, rfl⟩
    · rw [WallTime.ofSeconds_seconds (WallTime.isReal_of_isValid hwall.1)]
      exact hwall
    · rintro w ⟨hw, hmatches⟩
      have hle := hfirst _ hmatches
      rw [WallTime.seconds_ofSeconds] at hle
      exact hle hw (hspaced.instantAfter_isSome hw)
  | none =>
    refine .inr ⟨Set.eq_empty_of_forall_notMem ?_, rfl⟩
    rintro w ⟨hw, hmatches⟩
    have hle := not_matches_of_nextBy_eq_none hwf hlimit
      (fun _ _ hlater => hspaced.instantAfter_isSome hlater) h hmatches
    rw [WallTime.seconds_ofSeconds] at hle
    omega

/-- Some instant after the given one at which the clock shows a match comes before what a search
finds, or nothing is found. -/
def PassesOver (e : Expression) (clock : Clock) (limit : SearchLimit) (after : Instant) : Prop :=
  ∃ i ∈ e.matchesAfter clock after, ∀ stamp, e.nextBy clock limit after = some stamp →
    i < stamp.instant.seconds

theorem exists_isLeast_matchesAfter {i : Int} (hi : i ∈ e.matchesAfter clock after) :
    ∃ j, IsLeast (e.matchesAfter clock after) j ∧ j ≤ i := by
  obtain ⟨j, hj, hleast⟩ := Int.exists_least_of_bdd
    ⟨after.seconds, fun z hz => (Instant.before_ofSeconds.mp hz.1).le⟩ ⟨i, hi⟩
  exact ⟨j, ⟨hj, hleast⟩, hleast i hi⟩

section Spaced

variable {i w : Int} {stamp : Stamp}

/-- What a search finds beyond the first matching instant, although that shows a reading it has yet to
come to, stands for a skipped reading. -/
theorem skips_of_lt (hleast : IsLeast (e.matchesAfter clock after) i)
    (hlater : clock.read after.seconds < clock.read i)
    (hw : IsLeast (e.readingsAfter (clock.read after.seconds)) w)
    (hstamp : clock.instantAfter w after = some stamp) (hspaced : clock.Spaced)
    (hlt : i < stamp.instant.seconds) : clock.Skips w := by
  obtain ⟨k, rfl, _, hk⟩ := Clock.instantAfter_eq_some_iff.mp hstamp
  have hafter : after.seconds < i := Instant.before_ofSeconds.mp hleast.1.1
  have hle : w ≤ clock.read i := hw.2 ⟨hlater, hleast.1.2⟩
  obtain ⟨t, hat, hti, hread | hjump⟩ := Clock.exists_read_or_jumpsOver hafter.le hw.1.1 hle
  · -- the reading is shown on the way to the matching instant, and so found there
    have hkt : k ≤ t := hk ⟨(Clock.mem_candidates_of_read hread).mpr hread, hat⟩
    exact absurd hlt (not_lt.mpr (hkt.trans hti))
  · exact hspaced.skips_of_jumpsOver hjump

/-- If the clock shows at the first matching instant what it has shown before, a search finds a later
one at best. -/
theorem lt_of_read_le (hleast : IsLeast (e.matchesAfter clock after) i)
    (hearlier : clock.read i ≤ clock.read after.seconds)
    (hw : IsLeast (e.readingsAfter (clock.read after.seconds)) w)
    (hstamp : clock.instantAfter w after = some stamp) (hspaced : clock.Spaced) :
    i < stamp.instant.seconds := by
  obtain ⟨k, rfl, ⟨hmem, hafter⟩, _⟩ := Clock.instantAfter_eq_some_iff.mp hstamp
  have hlater := hw.1.1
  show i < k
  by_cases hskips : clock.Skips w
  · -- what stands for a skipped reading comes after the jump
    rw [Clock.mem_candidates_of_skips hskips] at hmem
    obtain ⟨t, hjump⟩ := hspaced.exists_jumpsOver_of_skips hskips
    have htk := hspaced.le_instantOfSkipped hjump
    by_contra hki
    -- and then the first matching instant does so, too, and shows a later reading
    have hti := hspaced.lt_read_of_jumpsOver hjump (i := i) (by omega)
    omega
  · -- an instant that shows the reading is a matching one, but not the first
    have hread := Clock.read_of_mem_candidates hskips hmem
    have hle : i ≤ k := hleast.2 ⟨Instant.before_ofSeconds.mpr hafter, by
      rw [MatchesAt, hread]
      exact hw.1.2⟩
    have hne : i ≠ k := by
      rintro rfl
      omega
    omega

end Spaced

/-- By a clock that is turned seldom, a search passes over a matching instant in two cases only.  The
clock has been turned back, and shows at the first matching instant what it has shown before.  Or the
first matching reading is skipped, and stands for an instant beyond the first matching one. -/
theorem passesOver_iff {text : String} (parsed : parse text = .ok e) (hspaced : clock.Spaced)
    (hlimit : 100000 ≤ limit.maxPasses) :
    e.PassesOver clock limit after ↔ ∃ i, IsLeast (e.matchesAfter clock after) i ∧
      (clock.read i ≤ clock.read after.seconds ∨
        ∃ w, IsLeast (e.readingsAfter (clock.read after.seconds)) w ∧ clock.Skips w ∧
          i < clock.instantOfSkipped w) := by
  have hwf := wellFormed_of_parse parsed
  constructor
  · rintro ⟨j, hj, hpassed⟩
    obtain ⟨i, hleast, hij⟩ := exists_isLeast_matchesAfter hj
    refine ⟨i, hleast, or_iff_not_imp_left.mpr fun hread => ?_⟩
    rw [not_le] at hread
    rcases nextBy_of_spaced hwf hspaced hlimit with ⟨w, stamp, hw, hstamp, hfound⟩ | ⟨hnone, _⟩
    · have hlt := hij.trans_lt (hpassed stamp hfound)
      have hskips := skips_of_lt hleast hread hw hstamp hspaced hlt
      rw [Clock.eq_stamp_of_skips hskips hstamp] at hlt
      exact ⟨w, hw, hskips, hlt⟩
    · exact absurd (hnone ▸ ⟨hread, hleast.1.2⟩) (Set.notMem_empty (clock.read i))
  · rintro ⟨i, hleast, hcase⟩
    refine ⟨i, hleast.1, fun stamp hfound => ?_⟩
    rcases nextBy_of_spaced hwf hspaced hlimit with ⟨w, found, hw, hstamp, hfound'⟩ | ⟨_, hfound'⟩
    · obtain rfl := Option.some.inj (hfound.symm.trans hfound')
      rcases hcase with hread | ⟨v, hv, hskips, hlt⟩
      · exact lt_of_read_le hleast hread hw hstamp hspaced
      · obtain rfl := hv.unique hw
        rw [Clock.eq_stamp_of_skips hskips hstamp]
        exact hlt
    · rw [hfound] at hfound'
      cases hfound'

end Expression

/-- A clock that is turned forward by half an hour over a quarter past two: what stands for that is
later than the 35 minutes past two that the clock shows. -/
theorem Expression.passesOver_iff_skipped :
    ∃ e, parse "2024-10-6 2:15,35 Australia/Lord_Howe" = .ok e ∧ e.zone.clock.Spaced ∧
      e.PassesOver e.zone.clock ⟨100000⟩ (.ofSeconds 1728129600) ∧
      ∃ i, IsLeast (e.matchesAfter e.zone.clock (.ofSeconds 1728129600)) i ∧
        (e.zone.clock.read i ≤ e.zone.clock.read 1728129600 ∨
          ∃ w, IsLeast (e.readingsAfter (e.zone.clock.read 1728129600)) w ∧ e.zone.clock.Skips w ∧
            i < e.zone.clock.instantOfSkipped w) := by
  let e : Expression :=
    ⟨.all, ⟨⟨[⟨2024, none, none⟩]⟩, ⟨[⟨10, none, none⟩]⟩, ⟨[⟨6, none, none⟩]⟩⟩,
      ⟨⟨[⟨2, none, none⟩]⟩, ⟨[⟨15, none, none⟩, ⟨35, none, none⟩]⟩, ⟨[⟨0, none, none⟩]⟩⟩,
      .named "Australia/Lord_Howe" (by decide +kernel)⟩
  have parsed : parse "2024-10-6 2:15,35 Australia/Lord_Howe" = .ok e := by decide +kernel
  have hspaced : e.zone.clock.Spaced := e.zone.spaced_clock
  have hmatches : e.MatchesAt e.zone.clock 1728142500 := by decide +kernel
  have found : e.nextBy e.zone.clock ⟨100000⟩ (.ofSeconds 1728129600)
      = some ⟨.ofSeconds 1728143100, 39600⟩ := by
    decide +kernel
  have passed : e.PassesOver e.zone.clock ⟨100000⟩ (.ofSeconds 1728129600) := by
    refine ⟨1728142500, ⟨Instant.before_ofSeconds.mpr (by decide), hmatches⟩, fun stamp h => ?_⟩
    obtain rfl := Option.some.inj (found.symm.trans h)
    decide
  exact ⟨e, parsed, hspaced, passed, (passesOver_iff parsed hspaced (by decide)).mp passed⟩

/-- A night on which half past two comes twice.  Asked in between, after the first time but before the
clock is turned back, the search answers with the next night. -/
theorem Expression.passesOver_repeated :
    ∃ e, parse "*-*-* 02:30 Europe/Paris" = .ok e ∧
      e.nextBy e.zone.clock ⟨100000⟩ (.ofSeconds 1729989900)
        = some ⟨.ofSeconds 1730079000, 3600⟩ ∧
      1729992600 ∈ e.matchesAfter e.zone.clock (.ofSeconds 1729989900) ∧
      e.PassesOver e.zone.clock ⟨100000⟩ (.ofSeconds 1729989900) := by
  let e : Expression :=
    ⟨.all, .omitted, ⟨⟨[⟨2, none, none⟩]⟩, ⟨[⟨30, none, none⟩]⟩, ⟨[⟨0, none, none⟩]⟩⟩,
      .named "Europe/Paris" (by decide +kernel)⟩
  have parsed : parse "*-*-* 02:30 Europe/Paris" = .ok e := by decide +kernel
  have found : e.nextBy e.zone.clock ⟨100000⟩ (.ofSeconds 1729989900)
      = some ⟨.ofSeconds 1730079000, 3600⟩ := by
    decide +kernel
  have hmatches : e.MatchesAt e.zone.clock 1729992600 := by decide +kernel
  have hmem : 1729992600 ∈ e.matchesAfter e.zone.clock (.ofSeconds 1729989900) :=
    ⟨Instant.before_ofSeconds.mpr (by decide), hmatches⟩
  refine ⟨e, parsed, found, hmem, 1729992600, hmem, fun stamp h => ?_⟩
  obtain rfl := Option.some.inj (found.symm.trans h)
  decide

end Recurrence
