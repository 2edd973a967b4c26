import Recurrence.Proofs.Search.Pass
import Recurrence.Proofs.Zone.Clock
import Recurrence.Zone.Standard

/-!
# What a search finds

A search finds the first match that stands for an instant after the given one
(`Expression.exists_of_nextBy_eq_some`), whatever the clock and however few passes it may make: as
no pass passes over a match, none is lost between two passes either.  A search may give up too soon,
but not if it may make 100000 passes and the clock has an instant for every match
(`Expression.not_matches_of_nextBy_eq_none`): then all passes but the last one lower the budget of the
cursor.
-/

namespace Recurrence

open Calendar

namespace Search

variable [ZoneDatabase] {e : Expression} {clock : Clock} {after : Instant} {c : Cursor}
  {passes : Nat} {stamp : Stamp}

/-- The reading of a cursor stands for an instant after the given one. -/
def Live (clock : Clock) (after : Instant) (c : Cursor) : Prop :=
  (clock.instantAfter c.wall.seconds after).isSome

/-! ### One pass of a run -/

theorem run_of_exhausted (h : pass e c = .exhausted) :
    run e clock after (passes + 1) c = none := by
  simp only [run, h]

theorem run_of_restart {c' : Cursor} (h : pass e c = .restart c') :
    run e clock after (passes + 1) c = run e clock after passes c' := by
  simp only [run, h]

theorem run_of_live {c' : Cursor} (h : pass e c = .settled c') (hvalid : c'.wall.IsValid)
    (hstamp : clock.instantAfter c'.wall.seconds after = some stamp) :
    run e clock after (passes + 1) c = some stamp := by
  simp only [run, h, Cursor.wall?_eq_some hvalid, hstamp]

theorem run_of_not_live {c' : Cursor} (h : pass e c = .settled c') (hvalid : c'.wall.IsValid)
    (hstamp : clock.instantAfter c'.wall.seconds after = none) :
    run e clock after (passes + 1) c
      = run e clock after passes { c' with second := c'.second + 1 } := by
  simp only [run, h, Cursor.wall?_eq_some hvalid, hstamp]

/-! ### Runs -/

/-- A search finds the first live match. -/
theorem isLeast_of_run_eq_some (hwf : e.WellFormed) (h : run e clock after passes c = some stamp) :
    ∃ m, IsLeast {m | Placed e m ∧ c ≤ m ∧ Live clock after m} m ∧
      clock.instantAfter m.wall.seconds after = some stamp := by
  induction passes generalizing c with
  | zero => cases h
  | succ passes ih =>
    have houtcome := pass_outcome hwf c
    cases hpass : pass e c with
    | exhausted =>
      rw [run_of_exhausted hpass] at h
      cases h
    | restart c' =>
      rw [hpass] at houtcome
      obtain _ | ⟨_, hlt, _, hnone⟩ | _ := houtcome
      rw [run_of_restart hpass] at h
      obtain ⟨m, ⟨⟨hm, hle, hlive⟩, hleast⟩, hstamp⟩ := ih h
      refine ⟨m, ⟨⟨hm, hlt.le.trans hle, hlive⟩, ?_⟩, hstamp⟩
      rintro n ⟨hn, hcn, hnlive⟩
      exact hleast ⟨hn, hnone n hn hcn, hnlive⟩
    | settled c' =>
      rw [hpass] at houtcome
      obtain ⟨hplaced, hle, _, hnone⟩ | _ | _ := houtcome
      -- the cursor stands for the first match; the question is whether it is live
      have hvalid := ((matches_wall_iff hwf).mpr hplaced).1
      cases hstamp : clock.instantAfter c'.wall.seconds after with
      | some found =>
        rw [run_of_live hpass hvalid hstamp] at h
        refine ⟨c', ⟨⟨hplaced, hle, Option.isSome_of_eq_some hstamp⟩, ?_⟩, hstamp.trans h⟩
        rintro n ⟨hn, hcn, _⟩
        exact hnone n hn hcn
      | none =>
        rw [run_of_not_live hpass hvalid hstamp] at h
        obtain ⟨m, ⟨⟨hm, hbump, hlive⟩, hleast⟩, hstamp'⟩ := ih h
        have hlt : c' < m := Cursor.bump_le_iff.mp hbump
        refine ⟨m, ⟨⟨hm, hle.trans hlt.le, hlive⟩, ?_⟩, hstamp'⟩
        rintro n ⟨hn, hcn, hnlive⟩
        -- the match that the pass has settled on is not live
        have hne : c' ≠ n := by
          rintro rfl
          simp [Live, hstamp] at hnlive
        have hlt' : c' < n := (hnone n hn hcn).lt_of_ne hne
        exact hleast ⟨hn, Cursor.bump_le_iff.mpr hlt', hnlive⟩

/-- A search that does not find anything within its budget has nothing to find, provided that every
match is live. -/
theorem not_le_of_run_eq_none (hwf : e.WellFormed)
    (hlive : ∀ m, Placed e m → c ≤ m → Live clock after m) (hbudget : budget e c < passes)
    (h : run e clock after passes c = none) : ∀ m, Placed e m → ¬c ≤ m := by
  induction passes generalizing c with
  | zero => exact absurd hbudget (Nat.not_lt_zero _)
  | succ passes ih =>
    have houtcome := pass_outcome hwf c
    cases hpass : pass e c with
    | exhausted =>
      rw [hpass] at houtcome
      obtain _ | _ | hnone := houtcome
      exact hnone
    | restart c' =>
      rw [hpass] at houtcome
      obtain _ | ⟨_, hlt, hlower, hnone⟩ | _ := houtcome
      rw [run_of_restart hpass] at h
      intro m hm hcm
      have hlive' (n : Cursor) (hn : Placed e n) (hcn : c' ≤ n) := hlive n hn (hlt.le.trans hcn)
      exact ih hlive' (by omega) h m hm (hnone m hm hcm)
    | settled c' =>
      rw [hpass] at houtcome
      obtain ⟨hplaced, hle, _, _⟩ | _ | _ := houtcome
      have hvalid := ((matches_wall_iff hwf).mpr hplaced).1
      obtain ⟨found, hfound⟩ := Option.isSome_iff_exists.mp (hlive c' hplaced hle)
      rw [run_of_live hpass hvalid hfound] at h
      cases h

end Search

namespace Expression

open Search

variable [ZoneDatabase] {e : Expression} {clock : Clock} {limit : SearchLimit} {after : Instant}
  {stamp : Stamp}

/-! ### Instants -/

/-- The clock shows a match at an instant. -/
def MatchesAt (e : Expression) (clock : Clock) (i : Int) : Prop :=
  e.Matches (.ofSeconds (clock.read i))

instance (e : Expression) (clock : Clock) (i : Int) : Decidable (e.MatchesAt clock i) :=
  inferInstanceAs (Decidable (e.Matches _))

/-- The instants after a given one at which the clock shows a match. -/
def matchesAfter (e : Expression) (clock : Clock) (after : Instant) : Set Int :=
  {i | after.Before (.ofSeconds i) ∧ e.MatchesAt clock i}

theorem matchesAt_of_matches {wall : WallTime} {i : Int} (hwall : e.Matches wall)
    (hread : clock.read i = wall.seconds) : e.MatchesAt clock i := by
  rw [MatchesAt, hread, WallTime.ofSeconds_seconds (WallTime.isReal_of_isValid hwall.1)]
  exact hwall

/-! ### Searches -/

theorem startingAfter_le_iff (hwf : e.WellFormed) {m : Cursor} (hm : Placed e m) {s : Int} :
    Cursor.startingAfter (.ofSeconds s) ≤ m ↔ s < m.wall.seconds := by
  have hyear := hm.year_bounds hwf
  have hvalid := ((matches_wall_iff hwf).mpr hm).1
  rw [Cursor.startingAfter_le_iff (WallTime.isReal_ofSeconds s) (WallTime.isReal_of_isValid hvalid)
    (by omega), WallTime.seconds_ofSeconds]

/-- Every match is a reading that a cursor stands for. -/
theorem exists_cursor_of_matches (hwf : e.WellFormed) {wall : WallTime} (hwall : e.Matches wall) :
    ∃ m, Placed e m ∧ m.wall = wall := by
  have hcursor := Cursor.wall_ofWall hwall.2.1
  rw [← hcursor, matches_wall_iff hwf] at hwall
  exact ⟨_, hwall, hcursor⟩

/-- What is found is the first match, later than what the clock shows at the given instant, that
stands for an instant after it. -/
theorem exists_of_nextBy_eq_some (hwf : e.WellFormed) (h : e.nextBy clock limit after = some stamp) :
    ∃ wall, e.Matches wall ∧ clock.read after.seconds < wall.seconds ∧
      clock.instantAfter wall.seconds after = some stamp ∧
      ∀ other, e.Matches other → clock.read after.seconds < other.seconds →
        (clock.instantAfter other.seconds after).isSome → wall.seconds ≤ other.seconds := by
  obtain ⟨m, ⟨⟨hm, hle, _⟩, hleast⟩, hstamp⟩ := isLeast_of_run_eq_some hwf h
  have hmatch := (matches_wall_iff hwf).mpr hm
  refine ⟨m.wall, hmatch, (startingAfter_le_iff hwf hm).mp hle, hstamp, ?_⟩
  intro other hother hlt hlive
  obtain ⟨n, hn, rfl⟩ := exists_cursor_of_matches hwf hother
  rw [← Cursor.le_iff_seconds_le (WallTime.isReal_of_isValid hmatch.1)
    (WallTime.isReal_of_isValid hother.1)]
  exact hleast ⟨hn, (startingAfter_le_iff hwf hn).mpr hlt, hlive⟩

/-- If every match stands for an instant, and the passes suffice, nothing is found only if there is
no match. -/
theorem not_matches_of_nextBy_eq_none (hwf : e.WellFormed) (hlimit : 100000 ≤ limit.maxPasses)
    (hlive : ∀ wall, e.Matches wall → clock.read after.seconds < wall.seconds →
      (clock.instantAfter wall.seconds after).isSome)
    (h : e.nextBy clock limit after = none) {wall : WallTime} (hwall : e.Matches wall) :
    wall.seconds ≤ clock.read after.seconds := by
  obtain ⟨m, hm, rfl⟩ := exists_cursor_of_matches hwf hwall
  have hlive' (n : Cursor) (hn : Placed e n)
      (hle : Cursor.startingAfter (.ofSeconds (clock.read after.seconds)) ≤ n) :
      Live clock after n :=
    hlive n.wall ((matches_wall_iff hwf).mpr hn) ((startingAfter_le_iff hwf hn).mp hle)
  have hpasses : 100000 ≤ limit.passes := hlimit.trans (le_max_left _ _)
  have hnone := not_le_of_run_eq_none hwf hlive' ((budget_lt e _).trans_le hpasses) h m hm
  rw [startingAfter_le_iff hwf hm] at hnone
  exact not_lt.mp hnone

/-- What a search finds, by any clock and under any limit: an instant strictly after the given one, with
the offset that the clock then has, for a match that is later than what the clock shows at the given
instant and has no earlier one before it that stands for an instant after it. -/
theorem first_of_nextBy_eq_some {text : String} (parsed : parse text = .ok e)
    (h : e.nextBy clock limit after = some stamp) :
    after.Before stamp.instant ∧ stamp.offset = clock.offsetAt stamp.instant.seconds ∧
      ∃ wall, e.Matches wall ∧ clock.read after.seconds < wall.seconds ∧
        clock.instantAfter wall.seconds after = some stamp ∧
        ∀ other, e.Matches other → clock.read after.seconds < other.seconds →
          (clock.instantAfter other.seconds after).isSome → wall.seconds ≤ other.seconds := by
  obtain ⟨wall, hwall, hlater, hstamp, hfirst⟩ :=
    exists_of_nextBy_eq_some (wellFormed_of_parse parsed) h
  obtain ⟨i, rfl, ⟨_, hafter⟩, _⟩ := Clock.instantAfter_eq_some_iff.mp hstamp
  exact ⟨Instant.before_ofSeconds.mpr hafter, rfl, wall, hwall, hlater, hstamp, hfirst⟩

end Expression

/-- A night on which half past two is skipped: found is the instant that would have shown it, had
the clock not been turned. -/
theorem Expression.first_of_nextBy_eq_some_skipped : ∃ e, parse "*-*-* 02:30 Europe/Paris" = .ok e ∧
    e.nextBy e.zone.clock .default (.ofSeconds 1711800000) = some ⟨.ofSeconds 1711848600, 7200⟩ ∧
    ∃ wall, e.Matches wall ∧ e.zone.clock.read 1711800000 < wall.seconds ∧
      e.zone.clock.instantAfter wall.seconds (.ofSeconds 1711800000)
        = some ⟨.ofSeconds 1711848600, 7200⟩ ∧
      ∀ other, e.Matches other → e.zone.clock.read 1711800000 < other.seconds →
        (e.zone.clock.instantAfter other.seconds (.ofSeconds 1711800000)).isSome →
          wall.seconds ≤ other.seconds := by
  let e : Expression :=
    ⟨.all, .omitted, ⟨⟨[⟨2, none, none⟩]⟩, ⟨[⟨30, none, none⟩]⟩, ⟨[⟨0, none, none⟩]⟩⟩,
      .named "Europe/Paris" (by decide +kernel)⟩
  have parsed : parse "*-*-* 02:30 Europe/Paris" = .ok e := by decide +kernel
  have found : e.nextBy e.zone.clock .default (.ofSeconds 1711800000)
      = some ⟨.ofSeconds 1711848600, 7200⟩ := by
    decide +kernel
  obtain ⟨_, _, hfirst⟩ := first_of_nextBy_eq_some parsed found
  exact ⟨e, parsed, found, hfirst⟩

end Recurrence
