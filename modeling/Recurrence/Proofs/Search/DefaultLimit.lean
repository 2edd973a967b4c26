import Mathlib.Order.Interval.Finset.Nat
import Recurrence.Proofs.Search.Dates
import Recurrence.Proofs.Search.Steady

/-!
# The default limit

By a clock that is never turned, a search finds nothing only if there is no match, or if passes begin
again too often on the way to the first one (`Expression.nextBy_eq_none_iff`).  That depends on how many
years, months and dates are passed on this way (`Expression.FindsAfter.restarts_bounds`).

An expression that does not filter the weekdays leaves few of them to pass: if one of its dates exists in
every year, the way ends in the year in which it begins or in the next one of the expression, and else
the expression asks for a leap day, and only common years are passed.  The default limit is above that
(`toll_lt_default`), but not above what a filter on weekdays can make of it.
-/

namespace Recurrence

open Calendar

namespace Search

/-! ### Common years -/

/-- The years without a leap day. -/
def commonYears : Finset Nat :=
  (Finset.Icc 1970 2199).filter fun year => isLeap year = false

theorem card_commonYears : commonYears.card = 174 := by
  rfl

/-- Only the leap day makes a month longer than in a common year. -/
theorem monthLength_eq_of_lt {year : Int} {month : Nat}
    (h : monthLength 1 month < monthLength year month) : monthLength year month = 29 := by
  have hcommon : isLeap 1 = false := rfl
  obtain ⟨hlow, hhigh⟩ := month_bounds_of_pos (Nat.zero_lt_of_lt h)
  cases hleap : isLeap year <;> interval_cases month <;> simp [monthLength, hleap, hcommon] at h ⊢

variable [ZoneDatabase] {e : Expression} {c m p : Cursor} {stage : Stage}

/-! ### Years and months on the way -/

theorem injOn_year_passed_year : Set.InjOn Cursor.year (passed e .year c m) := by
  rintro a ⟨_, ha, _⟩ b ⟨_, hb, _⟩ heq
  rw [← ha, ← hb, Cursor.clearBelow, Cursor.clearBelow, heq]

theorem injOn_month_passed_month :
    Set.InjOn (fun p => (p.year, p.month)) (passed e .month c m) := by
  rintro a ⟨_, ha, _⟩ b ⟨_, hb, _⟩ heq
  obtain ⟨hyear, hmonth⟩ := Prod.mk.inj heq
  rw [← ha, ← hb, Cursor.clearBelow, Cursor.clearBelow, hyear, hmonth]

/-- If every year of the expression has a match, none lies between the first and the last one. -/
theorem year_eq_of_mem_passed_month (hfirst : IsLeast {n | Placed e n ∧ c ≤ n} m)
    (hfill : ∀ p, YearPlaced e p → ∃ n, Placed e n ∧ n.year = p.year)
    (hp : p ∈ passed e .month c m) : p.year = c.year ∨ p.year = m.year := by
  obtain ⟨hsettled, _, hcp, hpm⟩ := hp
  obtain ⟨n, hn, hyear⟩ := hfill p hsettled.yearPlaced
  have hc : c.year ≤ p.year := by
    rw [Cursor.le_iff] at hcp
    simp only [Cursor.clearBelow] at hcp
    omega
  have hm : p.year ≤ m.year := by
    rw [Cursor.lt_iff] at hpm
    simp only [Cursor.clearBelow] at hpm
    omega
  by_contra hne
  -- the match of this year would come before the first one
  have hcn : c ≤ n := Cursor.le_iff.mpr (.inl (by omega))
  have hnm : n < m := Cursor.lt_iff.mpr (.inl (by omega))
  exact absurd (hfirst.2 ⟨hn, hcn⟩) (not_le.mpr hnm)

theorem ncard_passed_month_le (hwf : e.WellFormed) (hfirst : IsLeast {n | Placed e n ∧ c ≤ n} m)
    (hfill : ∀ p, YearPlaced e p → ∃ n, Placed e n ∧ n.year = p.year) :
    (passed e .month c m).ncard ≤ 24 := by
  let months : Finset (Nat × Nat) := {c.year, m.year} ×ˢ Finset.Icc 1 12
  have hmaps (p : Cursor) (hp : p ∈ passed e .month c m) : (p.year, p.month) ∈ (months : Set _) := by
    have hplaced : MonthPlaced e p := hp.1
    have hyear := year_eq_of_mem_passed_month hfirst hfill hp
    rw [Finset.mem_coe, Finset.mem_product, Finset.mem_insert, Finset.mem_singleton, Finset.mem_Icc]
    exact ⟨hyear, hplaced.month_bounds hwf⟩
  have hle := Set.ncard_le_ncard_of_injOn _ hmaps injOn_month_passed_month (Finset.finite_toSet _)
  rw [Set.ncard_coe_finset, Finset.card_product] at hle
  exact hle.trans (Nat.mul_le_mul_right 12 Finset.card_le_two)

/-- If every leap year of the expression has a match, only common ones are passed, and of each at most
one of a kind. -/
theorem ncard_passed_le_of_leapYears (hwf : e.WellFormed)
    (hfirst : IsLeast {n | Placed e n ∧ c ≤ n} m)
    (hinj : Set.InjOn Cursor.year (passed e stage c m))
    (hfill : ∀ p ∈ passed e stage c m, isLeap p.year = true →
      ∃ n, Placed e n ∧ n.clearBelow stage = p.clearBelow stage) :
    (passed e stage c m).ncard ≤ 175 := by
  have hmaps (p : Cursor) (hp : p ∈ passed e stage c m \ {c.clearBelow stage}) :
      p.year ∈ (commonYears : Set Nat) := by
    obtain ⟨hpassed, hne⟩ := hp
    rw [Finset.mem_coe, commonYears, Finset.mem_filter, Finset.mem_Icc]
    refine ⟨hpassed.1.yearPlaced.year_bounds hwf, Bool.eq_false_iff.mpr fun hleap => ?_⟩
    obtain ⟨n, hn, heq⟩ := hfill p hpassed hleap
    exact clearBelow_ne_of_mem_passed hfirst hpassed hne hn (heq.trans hpassed.2.1)
  have hle := Set.ncard_le_ncard_of_injOn Cursor.year hmaps (hinj.mono Set.sdiff_subset)
    (Finset.finite_toSet _)
  rw [Set.ncard_coe_finset, card_commonYears] at hle
  have hpred := Set.pred_ncard_le_ncard_sdiff_singleton (passed e stage c m) (c.clearBelow stage)
  omega

/-! ### Without a filter on weekdays -/

/-- An expression none of whose dates exists in every year asks for the leap day. -/
theorem leapDay_of_monthLength_lt (hwf : e.WellFormed) (hm : Placed e m)
    (hlt : ∀ month day, e.Admits .months month → e.Admits .days day → monthLength 1 month < day) :
    m.day ≤ 29 ∧ ∀ month, e.Admits .months month → month = 2 := by
  -- the first match has a date, so this date exists in its year at least
  have hlonger : monthLength 1 m.month < monthLength m.year m.month :=
    (hlt _ _ hm.month hm.day).trans_le hm.real.2
  have hday : m.day ≤ 29 := monthLength_eq_of_lt hlonger ▸ hm.real.2
  refine ⟨hday, fun month hmonth => ?_⟩
  have hshort : monthLength 1 month < 29 := (hlt _ _ hmonth hm.day).trans_le hday
  obtain ⟨hlow, hhigh⟩ : 1 ≤ month ∧ month ≤ 12 := hwf.bounds_of_admits hmonth (by simp)
  have hcommon : isLeap 1 = false := rfl
  interval_cases month <;> simp [monthLength, hcommon] at hshort ⊢

section EveryWeekday

variable (hwf : e.WellFormed) (hall : ∀ day, e.weekdays.containsDay day = true)

include hwf hall

theorem DayPlaced.exists_placed (h : DayPlaced e p) :
    ∃ n, Placed e n ∧ n.clearBelow .day = p.clearBelow .day := by
  obtain ⟨day, hday⟩ := Weekday.exists_number_eq p.wall.date.weekday_bounds
  have hdate : DatePlaced e p := { h with weekday := hday ▸ hall day }
  exact hdate.exists_placed hwf

/-- A date of the expression that exists in a year has a match there. -/
theorem YearPlaced.exists_placed (h : YearPlaced e p) {month day : Nat} (hmonth : e.Admits .months month)
    (hday : e.Admits .days day) (hle : day ≤ monthLength p.year month) :
    ∃ n, Placed e n ∧ n.year = p.year ∧ n.month = month := by
  have hbounds := hwf.bounds_of_admits hday (by simp)
  have hplaced : DayPlaced e ⟨p.year, month, day, 0, 0, 0⟩ :=
    ⟨⟨⟨h.year⟩, hmonth⟩, hday, hbounds.1, hle⟩
  obtain ⟨n, hn, heq⟩ := hplaced.exists_placed hwf hall
  simp only [Cursor.clearBelow, Cursor.mk.injEq] at heq
  exact ⟨n, hn, heq.1, heq.2.1⟩

variable (hfirst : IsLeast {n | Placed e n ∧ c ≤ n} m)

include hfirst

theorem ncard_passed_day_le_one : (passed e .day c m).ncard ≤ 1 :=
  ncard_passed_le_one hfirst fun _ h => DayPlaced.exists_placed hwf hall h

/-- If one date of the expression exists in every year, at most two years are seen. -/
theorem toll_le_of_le_monthLength {month day : Nat} (hmonth : e.Admits .months month)
    (hday : e.Admits .days day) (hle : day ≤ monthLength 1 month) : toll e c m ≤ 29 := by
  have hfill (p : Cursor) (h : YearPlaced e p) : ∃ n, Placed e n ∧ n.year = p.year := by
    obtain ⟨n, hn, hyear, _⟩ :=
      h.exists_placed hwf hall hmonth hday (hle.trans (monthLength_le _ _).1)
    exact ⟨n, hn, hyear⟩
  have hyears : (passed e .year c m).ncard ≤ 1 := by
    refine ncard_passed_le_one hfirst fun p h => ?_
    obtain ⟨n, hn, hyear⟩ := hfill p h
    exact ⟨n, hn, by rw [Cursor.clearBelow, Cursor.clearBelow, hyear]⟩
  have hmonths := ncard_passed_month_le hwf hfirst hfill
  have hdays := ncard_passed_day_le_one hwf hall hfirst
  have htoll := toll_le hwf hfirst
  omega

/-- If none does, every leap year of the expression has a match. -/
theorem toll_le_of_monthLength_lt
    (hlt : ∀ month day, e.Admits .months month → e.Admits .days day → monthLength 1 month < day) :
    toll e c m ≤ 354 := by
  have hm : Placed e m := hfirst.1.1
  obtain ⟨hday, hfebruary⟩ := leapDay_of_monthLength_lt hwf hm hlt
  have hfill (p : Cursor) (h : YearPlaced e p) (hleap : isLeap p.year = true) :
      ∃ n, Placed e n ∧ n.year = p.year ∧ n.month = 2 := by
    have hle : m.day ≤ monthLength p.year 2 := by
      rw [monthLength, if_pos hleap]
      exact hday
    exact h.exists_placed hwf hall (hfebruary _ hm.month ▸ hm.month) hm.day hle
  have hyears : (passed e .year c m).ncard ≤ 175 := by
    refine ncard_passed_le_of_leapYears hwf hfirst injOn_year_passed_year fun p hp hleap => ?_
    obtain ⟨n, hn, hyear, _⟩ := hfill p hp.1 hleap
    exact ⟨n, hn, by rw [Cursor.clearBelow, Cursor.clearBelow, hyear]⟩
  have hmonth {p : Cursor} (hp : p ∈ passed e .month c m) : p.month = 2 := by
    have hplaced : MonthPlaced e p := hp.1
    exact hfebruary _ hplaced.month
  have hmonths : (passed e .month c m).ncard ≤ 175 := by
    refine ncard_passed_le_of_leapYears hwf hfirst ?_ fun p hp hleap => ?_
    · -- each year has one month to pass, the February
      rintro a ha b hb heq
      exact injOn_month_passed_month ha hb (Prod.ext heq ((hmonth ha).trans (hmonth hb).symm))
    · obtain ⟨n, hn, hyear, heq⟩ := hfill p hp.1.yearPlaced hleap
      exact ⟨n, hn, by rw [Cursor.clearBelow, Cursor.clearBelow, hyear, heq, hmonth hp]⟩
  have hdays := ncard_passed_day_le_one hwf hall hfirst
  have htoll := toll_le hwf hfirst
  omega

/-- On the way to the first match, passes do not begin again as often as the default limit has it. -/
theorem toll_lt_default : toll e c m < SearchLimit.default.passes := by
  have hdefault : SearchLimit.default.passes = 500 := rfl
  by_cases hcommon : ∃ month day, e.Admits .months month ∧ e.Admits .days day ∧
      day ≤ monthLength 1 month
  · obtain ⟨month, day, hmonth, hday, hle⟩ := hcommon
    have htoll := toll_le_of_le_monthLength hwf hall hfirst hmonth hday hle
    omega
  · push Not at hcommon
    have htoll := toll_le_of_monthLength_lt hwf hall hfirst hcommon
    omega

end EveryWeekday

end Search

namespace Expression

open Search

variable [ZoneDatabase] {e : Expression} {clock : Clock} {limit : SearchLimit} {after : Instant}
  {stamp : Stamp} {offset i : Int} {restarts : Nat}

/-! ### By a steady clock -/

/-- The years, months, dates and so on, according to the stage, that fit the expression and are shown
after an instant, the current one included, and before another one. -/
def onTheWay (e : Expression) (clock : Clock) (after : Instant) (i : Int) (stage : Stage) : Set Cursor :=
  passed e stage (State.start clock after).cursor (.ofWall (.ofSeconds (clock.read i)))

/-- The dates on which the expression would have a match after one instant and before another one, but
for its weekdays. -/
def datesOnTheWay (e : Expression) (clock : Clock) (after : Instant) (i : Int) : Set Cursor :=
  datesBefore e (State.start clock after).cursor (.ofWall (.ofSeconds (clock.read i)))

/-- The first match of a search is what the clock shows at the first instant with a match. -/
theorem isLeast_placed (hwf : e.WellFormed) (hsteady : clock.Steady offset)
    (h : IsLeast (e.matchesAfter clock after) i) :
    IsLeast {n | Placed e n ∧ (State.start clock after).cursor ≤ n} (.ofWall (.ofSeconds (clock.read i))) := by
  obtain ⟨⟨hafter, hmatches⟩, hfirst⟩ := h
  rw [Instant.before_ofSeconds] at hafter
  have hwall := Cursor.wall_ofWall hmatches.2.1
  have hplaced : Placed e (.ofWall (.ofSeconds (clock.read i))) := by
    rw [← matches_wall_iff hwf, hwall]
    exact hmatches
  refine ⟨⟨hplaced, (startingAfter_le_iff hwf hplaced).mpr ?_⟩, ?_⟩
  · rw [hwall, WallTime.seconds_ofSeconds, hsteady.read_eq, hsteady.read_eq]
    omega
  · rintro n ⟨hn, hle⟩
    -- another match is shown at an instant after the given one, hence not before the first such
    have hlater : clock.read after.seconds < n.wall.seconds := (startingAfter_le_iff hwf hn).mp hle
    have hmatch := (matches_wall_iff hwf).mpr hn
    have hread : clock.read (n.wall.seconds - offset) = n.wall.seconds := by
      rw [hsteady.read_eq]
      omega
    have hi : i ≤ n.wall.seconds - offset := by
      refine hfirst ⟨Instant.before_ofSeconds.mpr ?_, matchesAt_of_matches hmatch hread⟩
      rw [hsteady.read_eq] at hlater
      omega
    have hreal := WallTime.isReal_of_isValid ((matches_wall_iff hwf).mpr hplaced).1
    rw [Cursor.le_iff_seconds_le hreal (WallTime.isReal_of_isValid hmatch.1), hwall,
      WallTime.seconds_ofSeconds, hsteady.read_eq]
    omega

/-- Up to the first instant with a match, passes begin again as often as there is something on the way,
at most. -/
theorem FindsAfter.restarts_le_toll (hwf : e.WellFormed) (hsteady : clock.Steady offset)
    (h : e.FindsAfter clock after stamp restarts) (hleast : IsLeast (e.matchesAfter clock after) i) :
    restarts ≤ toll e (State.start clock after).cursor (.ofWall (.ofSeconds (clock.read i))) := by
  obtain ⟨s, hreach, _, rfl⟩ := h
  obtain ⟨⟨hplaced, hle⟩, _⟩ := isLeast_placed hwf hsteady hleast
  have hlater := (startingAfter_le_iff hwf hplaced).mp hle
  rw [hsteady.read_eq] at hlater
  have hlive : Live clock after (.ofWall (.ofSeconds (clock.read i))) :=
    Option.isSome_of_eq_some (hsteady.instantAfter_eq_some_iff.mpr ⟨rfl, by omega⟩)
  have hpaid := (State.inv_start e clock after).restarts_add_toll_le hwf hreach hplaced hlive hle
  have hzero : (State.start clock after).restarts = 0 := rfl
  omega

/-- What stands on the way to the first instant with a match says how often passes begin again, up to as
many times as there are years and months. -/
theorem FindsAfter.restarts_bounds (hwf : e.WellFormed) (hsteady : clock.Steady offset)
    (h : e.FindsAfter clock after stamp restarts) (hleast : IsLeast (e.matchesAfter clock after) i) :
    (e.datesOnTheWay clock after i).ncard ≤ restarts ∧
      restarts ≤ (e.onTheWay clock after i .year).ncard + (e.onTheWay clock after i .month).ncard +
        (e.onTheWay clock after i .day).ncard + 3 := by
  have hfirst := isLeast_placed hwf hsteady hleast
  exact ⟨h.ncard_datesBefore_le hwf hfirst,
    (h.restarts_le_toll hwf hsteady hleast).trans (toll_le hwf hfirst)⟩

/-- Without a limit, the first instant with a match is found if there is one. -/
theorem exists_findsAfter (hwf : e.WellFormed) (hsteady : clock.Steady offset)
    (hne : e.matchesAfter clock after ≠ ∅) : ∃ i restarts, IsLeast (e.matchesAfter clock after) i ∧
      e.FindsAfter clock after ⟨.ofSeconds i, offset⟩ restarts := by
  have hlimit : 100000 ≤ (SearchLimit.mk 100000).maxPasses := le_rfl
  cases h : e.nextBy clock ⟨100000⟩ after with
  | none => exact absurd (matchesAfter_eq_empty hwf hsteady hlimit h) hne
  | some stamp =>
    obtain ⟨i, rfl, hleast⟩ := isLeast_of_nextBy_eq_some hwf hsteady h
    obtain ⟨restarts, hfinds, _⟩ := nextBy_eq_some_iff.mp h
    exact ⟨i, restarts, hleast, hfinds⟩

/-- By a steady clock nothing is found exactly if there is no match, or if passes begin again too often
before the first one is found. -/
theorem nextBy_eq_none_iff (hwf : e.WellFormed) (hsteady : clock.Steady offset) :
    e.nextBy clock limit after = none ↔ e.matchesAfter clock after = ∅ ∨
      ∃ i restarts, IsLeast (e.matchesAfter clock after) i ∧
        e.FindsAfter clock after ⟨.ofSeconds i, offset⟩ restarts ∧ limit.passes ≤ restarts := by
  constructor
  · intro hnone
    by_cases hempty : e.matchesAfter clock after = ∅
    · exact .inl hempty
    · obtain ⟨i, restarts, hleast, hfinds⟩ := exists_findsAfter hwf hsteady hempty
      exact .inr ⟨i, restarts, hleast, hfinds, hfinds.passes_le hnone⟩
  · intro hlate
    refine Option.eq_none_iff_forall_ne_some.mpr fun stamp hsome => ?_
    obtain ⟨j, rfl, hleast⟩ := isLeast_of_nextBy_eq_some hwf hsteady hsome
    rcases hlate with hempty | ⟨i, restarts, hleast', hfinds, hmany⟩
    · exact absurd (hempty ▸ hleast.1) (Set.notMem_empty j)
    · obtain ⟨restarts', hfinds', hfew⟩ := nextBy_eq_some_iff.mp hsome
      have heq := hfinds'.unique hfinds
      omega

/-- Whether or not it filters weekdays, under the default limit a search finds nothing exactly if there
is no match, or if passes would begin again 500 times before the first one is found.  They do so once at
least for each date on a wrong weekday that is on the way to it, and else once for each year, month and
date at most, and three times. -/
theorem nextBy_default_eq_none_iff {text : String} (parsed : parse text = .ok e)
    (hsteady : clock.Steady offset) (after : Instant) :
    (e.nextBy clock .default after = none ↔ e.matchesAfter clock after = ∅ ∨
      ∃ i restarts, IsLeast (e.matchesAfter clock after) i ∧
        e.FindsAfter clock after ⟨.ofSeconds i, offset⟩ restarts ∧ 500 ≤ restarts) ∧
    ∀ i restarts, IsLeast (e.matchesAfter clock after) i →
      e.FindsAfter clock after ⟨.ofSeconds i, offset⟩ restarts →
        (e.datesOnTheWay clock after i).ncard ≤ restarts ∧
        restarts ≤ (e.onTheWay clock after i .year).ncard + (e.onTheWay clock after i .month).ncard +
          (e.onTheWay clock after i .day).ncard + 3 := by
  have hwf := wellFormed_of_parse parsed
  exact ⟨nextBy_eq_none_iff hwf hsteady,
    fun _ _ hleast hfinds => hfinds.restarts_bounds hwf hsteady hleast⟩

end Expression

/-! ### Mondays that are hidden -/

namespace Expression

open Search

/-- Mondays among the days between the Mondays of some months.  The calendar does not repeat itself after
28 years when it comes to 2100, so there are such Mondays, the first of them in 2111. -/
def lateMondays : Expression :=
  ⟨⟨[⟨1, none⟩]⟩, ⟨⟨[⟨1971, none, some 28⟩, ⟨1982, none, some 28⟩]⟩,
    ⟨[⟨2, none, none⟩, ⟨3, none, none⟩, ⟨11, none, none⟩]⟩, ⟨[⟨2, some 7, some 7⟩]⟩⟩, .omitted, .utc⟩

theorem parse_lateMondays : parse "Mon 1971/28,1982/28-2,3,11-2..7/7 UTC" = .ok lateMondays := by
  decide +kernel

theorem mem_matchesAfter_lateMondays :
    (4452278400 : Int) ∈ lateMondays.matchesAfter lateMondays.zone.clock (.ofSeconds 0) :=
  ⟨Instant.before_ofSeconds.mpr (by decide), by decide +kernel⟩

/-- The first years, months and days of these dates. -/
def lateYears : Finset Nat := {1971, 1982, 1999, 2010, 2027, 2038, 2055}
def lateMonths : Finset Nat := {2, 3, 11}
def lateDays : Finset Nat := (Finset.Icc 2 28).filter fun day => day % 7 ≠ 1

theorem lateYears_bounds {year : Nat} (h : year ∈ lateYears) : 1970 < year ∧ year ≤ 2055 := by
  simp only [lateYears, Finset.mem_insert, Finset.mem_singleton] at h
  omega

theorem values_lateMondays :
    (lateMondays.date.years.values 2199).filter (· ≤ 2055) =
      [1971, 1982, 1999, 2010, 2027, 2038, 2055] ∧
    lateMondays.date.months.values 12 = [2, 3, 11] ∧
    lateMondays.date.days.values 31 = (List.range' 2 30).filter (· % 7 ≠ 1) ∧
    lateMondays.Admits .hours 0 ∧ lateMondays.Admits .minutes 0 ∧ lateMondays.Admits .seconds 0 := by
  decide +kernel

theorem admits_years_lateMondays {year : Nat} (hle : year ≤ 2055) :
    lateMondays.Admits .years year ↔ year ∈ lateYears := by
  have hmem : year ∈ (lateMondays.date.years.values 2199).filter (· ≤ 2055) ↔ year ∈ lateYears := by
    rw [values_lateMondays.1]
    simp [lateYears]
  rw [← hmem, List.mem_filter, and_iff_left (by simpa using hle)]
  rfl

theorem admits_months_lateMondays {month : Nat} :
    lateMondays.Admits .months month ↔ month ∈ lateMonths := by
  show month ∈ lateMondays.date.months.values 12 ↔ _
  rw [values_lateMondays.2.1]
  simp [lateMonths]

theorem admits_days_lateMondays {day : Nat} :
    lateMondays.Admits .days day ↔ (2 ≤ day ∧ day ≤ 31) ∧ day % 7 ≠ 1 := by
  show day ∈ lateMondays.date.days.values 31 ↔ _
  rw [values_lateMondays.2.2.1, List.mem_filter, List.mem_range'_1, decide_eq_true_eq]
  omega

/-- These months begin on a Monday, and no other day is a Monday that is a multiple of a week behind. -/
theorem lt_year_lateMondays {n : Cursor} (h : Placed lateMondays n) : 2055 < n.year := by
  have hfirst : ∀ year ∈ lateYears, ∀ month ∈ lateMonths, (Date.mk year month 1).weekday = 1 := by
    decide
  by_contra hle
  have hmonday := hfirst _ ((admits_years_lateMondays (not_lt.mp hle)).mp h.year) _
    (admits_months_lateMondays.mp h.month)
  have hday := (admits_days_lateMondays.mp h.day).2
  have hweekday : 1 = n.wall.date.weekday := by
    have hcontains : WeekdaySeries.contains ⟨[⟨1, none⟩]⟩ n.wall.date.weekday = true := h.weekday
    simpa [WeekdaySeries.contains, WeekdaySpan.contains] using hcontains
  simp only [Cursor.wall, Date.weekday, Date.dayNumber] at hweekday hmonday
  omega

theorem placed_unfiltered_lateMondays {year month day : Nat} (hyear : year ∈ lateYears)
    (hmonth : month ∈ lateMonths) (hday : day ∈ lateDays) :
    Placed lateMondays.unfiltered ⟨year, month, day, 0, 0, 0⟩ := by
  have hlast : year ≤ 2055 := (lateYears_bounds hyear).2
  have hbounds : 1 ≤ month ∧ month ≤ 12 := by
    simp only [lateMonths, Finset.mem_insert, Finset.mem_singleton] at hmonth
    omega
  obtain ⟨hicc, hother⟩ := Finset.mem_filter.mp hday
  obtain ⟨hlow, hhigh⟩ := Finset.mem_Icc.mp hicc
  have hlength := monthLength_bounds year hbounds
  have hhigh' : day ≤ 31 := by omega
  have hreal : (Date.mk year month day).IsReal := ⟨by dsimp only; omega, by dsimp only; omega⟩
  have hdate : DayPlaced lateMondays ⟨year, month, day, 0, 0, 0⟩ :=
    ⟨⟨⟨(admits_years_lateMondays hlast).mpr hyear⟩,
      admits_months_lateMondays.mpr hmonth⟩,
      admits_days_lateMondays.mpr ⟨⟨hlow, hhigh'⟩, hother⟩, hreal⟩
  obtain ⟨_, _, _, hhour, hminute, hsecond⟩ := values_lateMondays
  exact ⟨⟨⟨DatePlaced.unfiltered hdate, hhour⟩, hminute⟩, hsecond⟩

theorem ncard_datesOnTheWay_lateMondays {i : Int}
    (hleast : IsLeast (lateMondays.matchesAfter lateMondays.zone.clock (.ofSeconds 0)) i) :
    504 ≤ (lateMondays.datesOnTheWay lateMondays.zone.clock (.ofSeconds 0) i).ncard := by
  have hwf := wellFormed_of_parse parse_lateMondays
  have hsteady : lateMondays.zone.clock.Steady 0 := Clock.steady_fixed 0
  have hlate := lt_year_lateMondays (isLeast_placed hwf hsteady hleast).1.1
  have hstart : (State.start lateMondays.zone.clock (.ofSeconds 0)).cursor.year = 1970 := by rfl
  let dates := lateYears ×ˢ lateMonths ×ˢ lateDays
  let first : Nat × Nat × Nat → Cursor := fun date => ⟨date.1, date.2.1, date.2.2, 0, 0, 0⟩
  have hcard : dates.card = 504 := by
    rw [Finset.card_product, Finset.card_product]
    rfl
  have hinj : Function.Injective first := by
    rintro ⟨year, month, day⟩ ⟨year', month', day'⟩ heq
    simpa [first] using heq
  have hmaps : ∀ date ∈ (dates : Set (Nat × Nat × Nat)), first date ∈
      lateMondays.datesOnTheWay lateMondays.zone.clock (.ofSeconds 0) i := by
    rintro ⟨year, month, day⟩ hdate
    obtain ⟨hyear, hrest⟩ := Finset.mem_product.mp (Finset.mem_coe.mp hdate)
    obtain ⟨hmonth, hday⟩ := Finset.mem_product.mp hrest
    obtain ⟨hlow, hhigh⟩ := lateYears_bounds hyear
    refine ⟨_, placed_unfiltered_lateMondays hyear hmonth hday, ?_, ?_, rfl⟩
    · exact Cursor.le_iff.mpr (.inl (by rw [hstart]; exact hlow))
    · exact Cursor.lt_iff.mpr (.inl (hhigh.trans_lt hlate))
  have hle := Set.ncard_le_ncard_of_injOn first hmaps hinj.injOn (finite_datesBefore hwf)
  rwa [Set.ncard_coe_finset, hcard] at hle

theorem next_lateMondays : lateMondays.next (.ofSeconds 0) = none := by
  have hwf := wellFormed_of_parse parse_lateMondays
  have hsteady : lateMondays.zone.clock.Steady 0 := Clock.steady_fixed 0
  obtain ⟨i, restarts, hleast, hfinds⟩ := exists_findsAfter hwf hsteady
    (Set.nonempty_of_mem mem_matchesAfter_lateMondays).ne_empty
  have hmany := (hfinds.restarts_bounds hwf hsteady hleast).1
  have hdates := ncard_datesOnTheWay_lateMondays hleast
  have hdefault : SearchLimit.default.passes = 500 := rfl
  exact (nextBy_eq_none_iff hwf hsteady).mpr (.inr ⟨i, restarts, hleast, hfinds, by omega⟩)

theorem nextBy_default_eq_none_iff_lateMondays :
    ∃ e, parse "Mon 1971/28,1982/28-2,3,11-2..7/7 UTC" = .ok e ∧ e.zone.clock.Steady 0 ∧
      e.nextBy e.zone.clock .default (.ofSeconds 0) = none ∧
      ∃ i restarts, IsLeast (e.matchesAfter e.zone.clock (.ofSeconds 0)) i ∧
        e.FindsAfter e.zone.clock (.ofSeconds 0) ⟨.ofSeconds i, 0⟩ restarts ∧ 500 ≤ restarts ∧
        (e.datesOnTheWay e.zone.clock (.ofSeconds 0) i).ncard ≤ restarts ∧
        restarts ≤ (e.onTheWay e.zone.clock (.ofSeconds 0) i .year).ncard +
          (e.onTheWay e.zone.clock (.ofSeconds 0) i .month).ncard +
          (e.onTheWay e.zone.clock (.ofSeconds 0) i .day).ncard + 3 := by
  have hsteady : lateMondays.zone.clock.Steady 0 := Clock.steady_fixed 0
  have hnone : lateMondays.nextBy lateMondays.zone.clock .default (.ofSeconds 0) = none :=
    next_lateMondays
  obtain ⟨hiff, hbound⟩ := nextBy_default_eq_none_iff parse_lateMondays hsteady (.ofSeconds 0)
  obtain hempty | ⟨i, restarts, hleast, hfinds, hmany⟩ := hiff.mp hnone
  · exact absurd (hempty ▸ mem_matchesAfter_lateMondays) (Set.notMem_empty _)
  · exact ⟨lateMondays, parse_lateMondays, hsteady, hnone, i, restarts, hleast, hfinds, hmany,
      hbound i restarts hleast hfinds⟩

/-- So the default limit can hide matches of an expression that filters weekdays. -/
theorem next_eq_none_lateMondays :
    ∃ e, parse "Mon 1971/28,1982/28-2,3,11-2..7/7 UTC" = .ok e ∧ e.zone = .utc ∧
      (∃ day, e.weekdays.containsDay day = false) ∧
      (e.matchesAfter e.zone.clock (.ofSeconds 0)).Nonempty ∧ e.next (.ofSeconds 0) = none :=
  ⟨lateMondays, parse_lateMondays, rfl, ⟨.tuesday, rfl⟩, ⟨_, mem_matchesAfter_lateMondays⟩,
    next_lateMondays⟩

end Expression

/-! ### Expressions that do not filter weekdays -/

namespace Expression

open Search

variable [ZoneDatabase] {e : Expression} {clock : Clock} {offset : Int}

/-- Without a filter on weekdays the default limit is never met: a search finds the first instant with a
match, and nothing exactly if there is none. -/
theorem nextBy_default_of_forall_weekday {text : String} (parsed : parse text = .ok e)
    (hall : ∀ day, e.weekdays.containsDay day = true) (hsteady : clock.Steady offset) (after : Instant) :
    (∀ stamp, e.nextBy clock .default after = some stamp ↔
      ∃ i, stamp = ⟨.ofSeconds i, offset⟩ ∧ IsLeast (e.matchesAfter clock after) i) ∧
    (e.nextBy clock .default after = none ↔ e.matchesAfter clock after = ∅) := by
  have hwf := wellFormed_of_parse parsed
  have hfew {i : Int} {restarts : Nat} {stamp : Stamp} (hleast : IsLeast (e.matchesAfter clock after) i)
      (hfinds : e.FindsAfter clock after stamp restarts) : restarts < SearchLimit.default.passes :=
    (hfinds.restarts_le_toll hwf hsteady hleast).trans_lt
      (toll_lt_default hwf hall (isLeast_placed hwf hsteady hleast))
  have hnone : e.nextBy clock .default after = none ↔ e.matchesAfter clock after = ∅ := by
    rw [nextBy_eq_none_iff hwf hsteady]
    refine ⟨?_, .inl⟩
    rintro (hempty | ⟨i, restarts, hleast, hfinds, hmany⟩)
    · exact hempty
    · exact absurd (hfew hleast hfinds) (not_lt.mpr hmany)
  refine ⟨fun stamp => ⟨isLeast_of_nextBy_eq_some hwf hsteady, ?_⟩, hnone⟩
  rintro ⟨i, rfl, hleast⟩
  obtain ⟨j, restarts, hleast', hfinds⟩ :=
    exists_findsAfter hwf hsteady (Set.nonempty_of_mem hleast.1).ne_empty
  obtain rfl := hleast.unique hleast'
  exact nextBy_eq_some_iff.mpr ⟨restarts, hfinds, hfew hleast hfinds⟩

end Expression

/-- A leap day for which common years are passed. -/
theorem Expression.nextBy_default_of_forall_weekday_leapDay :
    ∃ e, parse "1973..1975,2000-2-29 UTC" = .ok e ∧ (∀ day, e.weekdays.containsDay day = true) ∧
      e.zone.clock.Steady 0 ∧
      e.nextBy e.zone.clock .default (.ofSeconds 0) = some ⟨.ofSeconds 951782400, 0⟩ ∧
      IsLeast (e.matchesAfter e.zone.clock (.ofSeconds 0)) 951782400 := by
  let e : Expression :=
    ⟨.all, ⟨⟨[⟨1973, some 1975, none⟩, ⟨2000, none, none⟩]⟩, ⟨[⟨2, none, none⟩]⟩,
      ⟨[⟨29, none, none⟩]⟩⟩, .omitted, .utc⟩
  have parsed : parse "1973..1975,2000-2-29 UTC" = .ok e := by decide +kernel
  have hall : ∀ day, e.weekdays.containsDay day = true := by
    intro day
    cases day <;> decide
  have hsteady : e.zone.clock.Steady 0 := Clock.steady_fixed 0
  have found : e.nextBy e.zone.clock .default (.ofSeconds 0) = some ⟨.ofSeconds 951782400, 0⟩ := by
    decide +kernel
  obtain ⟨hsome, _⟩ := nextBy_default_of_forall_weekday parsed hall hsteady (.ofSeconds 0)
  obtain ⟨i, hi, hleast⟩ := (hsome _).mp found
  obtain rfl : 951782400 = i := congrArg (fun stamp => stamp.instant.seconds) hi
  exact ⟨e, parsed, hall, hsteady, found, hleast⟩

end Recurrence
