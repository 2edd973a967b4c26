import Recurrence.Proofs.Expression.Text
import Recurrence.Proofs.Search.Cursor
import Recurrence.Proofs.Span.Values
import Recurrence.Search.Basic

/-!
# What a pass does

A pass takes a cursor to the first match at or after it, or carries something and has to begin again,
or finds that no match is left (`pass_outcome`).  In no case does it pass over a match: a match that
is not before the old cursor is not before the new one.

This is said of each stage, by the values of its series alone, and the stages are put together with
`descend_cons`.  A stage relies on what the coarser ones have placed.  What is carried also lowers the
`budget` of a cursor, so only so many passes can end that way: the date moves on, or the time of day
has one carry less to make before the date does.
-/

namespace Recurrence

/-! ### The values of a field -/

namespace Series

variable {field : Field} {series : Series}

theorem Fits.bounds (h : series.Fits field) {v : Nat} (hv : v ∈ series.values field.max) :
    field.min ≤ v ∧ v ≤ field.max := by
  obtain ⟨hle, span, hspan, hcovers⟩ := (mem_values field.max_le_maxNumber).mp hv
  exact ⟨((h.within span hspan).min_le_first).trans (Span.first_le_of_covers hcovers), hle⟩

theorem Fits.values_ne_nil (h : series.Fits field) : series.values field.max ≠ [] := by
  obtain ⟨span, hspan⟩ := List.exists_mem_of_ne_nil _ h.wellFormed.ne_nil
  refine List.ne_nil_of_mem ((mem_values field.max_le_maxNumber).mpr
    ⟨(h.within span hspan).first_le_max, span, hspan, 0, fun _ => rfl, by omega, ?_⟩)
  cases hlast : span.last with
  | none => simp
  | some last =>
    have := (h.wellFormed.spans span hspan).first_lt last hlast
    simp only [Option.getD_some]
    omega

end Series

namespace Expression

variable [ZoneDatabase] {e : Expression}

theorem WellFormed.fits (h : e.WellFormed) {field : Field} (hfield : field ≠ .weekdays) :
    (e.series field).Fits field := by
  cases field with
  | weekdays => exact absurd rfl hfield
  | years => exact h.date.years
  | months => exact h.date.months
  | days => exact h.date.days
  | hours => exact h.time.hours
  | minutes => exact h.time.minutes
  | seconds => exact h.time.seconds

theorem WellFormed.bounds_of_admits (h : e.WellFormed) {field : Field} {v : Nat}
    (hv : e.Admits field v) (hfield : field ≠ .weekdays := by decide) :
    field.min ≤ v ∧ v ≤ field.max :=
  (h.fits hfield).bounds hv

end Expression

namespace Search

open Calendar

/-- The three ways in which a unit finds the next value of its series. -/
theorem place_elim {P : Step → Prop} {stage : Stage} {series : Series} {current max : Nat}
    {put : Nat → Cursor} {carry : Cursor → Step} (hne : series.values max ≠ [])
    (same : current ∈ series.values max → P (.settled (put current)))
    (later : ∀ v ∈ series.values max, current < v →
      (∀ u ∈ series.values max, current ≤ u → v ≤ u) → P (.settled ((put v).clearBelow stage)))
    (wrap : ∀ v ∈ series.values max, (∀ u ∈ series.values max, u < current) →
      (∀ u ∈ series.values max, v ≤ u) → P (carry (put v))) :
    P (place stage (series.next? current max) put carry) := by
  cases hnext : series.next? current max with
  | none => exact absurd (Series.next?_eq_none_iff.mp hnext) hne
  | some next =>
    obtain ⟨hdiff, ⟨⟨hmem, hle⟩, hleast⟩ | ⟨hpast, hmem, hleast⟩⟩ := Series.next?_eq_some hnext
    · -- the series has a value from the current one on
      have hwrapped : next.wrapped = false := decide_eq_false (by omega)
      rcases hle.eq_or_lt with heq | hlt
      · have hadvanced : next.advanced = false := decide_eq_false (by omega)
        simp only [place, hwrapped, hadvanced, Bool.false_eq_true, if_false]
        rw [← heq]
        exact same (heq ▸ hmem)
      · have hadvanced : next.advanced = true := decide_eq_true (by omega)
        simp only [place, hwrapped, hadvanced, Bool.false_eq_true, if_false, if_true]
        exact later _ hmem hlt fun u hu hcurrent => hleast ⟨hu, hcurrent⟩
    · -- the series starts over
      have hlt : next.value < current := hpast _ hmem
      have hwrapped : next.wrapped = true := decide_eq_true (by omega)
      simp only [place, hwrapped, if_true]
      exact wrap _ hmem hpast fun u hu => hleast hu

variable [ZoneDatabase] {e : Expression} {c : Cursor}

/-! ### What is placed

What holds of a cursor once a pass has gone through a stage. -/

/-- The year is one of the expression. -/
structure YearPlaced (e : Expression) (c : Cursor) : Prop where
  year : e.Admits .years c.year

/-- So is the month. -/
structure MonthPlaced (e : Expression) (c : Cursor) : Prop extends YearPlaced e c where
  month : e.Admits .months c.month

/-- So is the day, and the month has it. -/
structure DayPlaced (e : Expression) (c : Cursor) : Prop extends MonthPlaced e c where
  day : e.Admits .days c.day
  real : c.wall.date.IsReal

/-- The date falls on a weekday of the expression. -/
structure DatePlaced (e : Expression) (c : Cursor) : Prop extends DayPlaced e c where
  weekday : e.weekdays.contains c.wall.date.weekday = true

/-- The hour is one of the expression, too. -/
structure HourPlaced (e : Expression) (c : Cursor) : Prop extends DatePlaced e c where
  hour : e.Admits .hours c.hour

/-- So is the minute. -/
structure MinutePlaced (e : Expression) (c : Cursor) : Prop extends HourPlaced e c where
  minute : e.Admits .minutes c.minute

/-- So is the second. -/
structure Placed (e : Expression) (c : Cursor) : Prop extends MinutePlaced e c where
  second : e.Admits .seconds c.second

theorem YearPlaced.year_bounds (hwf : e.WellFormed) (h : YearPlaced e c) :
    1970 ≤ c.year ∧ c.year ≤ 2199 :=
  hwf.bounds_of_admits h.year

theorem MonthPlaced.month_bounds (hwf : e.WellFormed) (h : MonthPlaced e c) :
    1 ≤ c.month ∧ c.month ≤ 12 :=
  hwf.bounds_of_admits h.month

theorem DayPlaced.day_bounds (hwf : e.WellFormed) (h : DayPlaced e c) : 1 ≤ c.day ∧ c.day ≤ 31 :=
  hwf.bounds_of_admits h.day

theorem HourPlaced.hour_le (hwf : e.WellFormed) (h : HourPlaced e c) : c.hour ≤ 23 :=
  (hwf.bounds_of_admits h.hour).2

theorem MinutePlaced.minute_le (hwf : e.WellFormed) (h : MinutePlaced e c) : c.minute ≤ 59 :=
  (hwf.bounds_of_admits h.minute).2

theorem Placed.second_le (hwf : e.WellFormed) (h : Placed e c) : c.second ≤ 59 :=
  (hwf.bounds_of_admits h.second).2

theorem DayPlaced.isValid_date (hwf : e.WellFormed) (h : DayPlaced e c) : c.wall.date.IsValid := by
  have hyear := h.year_bounds hwf
  refine ⟨?_, ?_, h.real⟩
  · unfold minYear Cursor.wall
    dsimp only
    omega
  · unfold maxYear Cursor.wall
    dsimp only
    omega

/-- A cursor stands for a match as soon as all of its units are placed. -/
theorem matches_wall_iff (hwf : e.WellFormed) : e.Matches c.wall ↔ Placed e c := by
  constructor
  · rintro ⟨hvalid, _, hyear, hmonth, hday, hweekday, hhour, hminute, hsecond⟩
    exact ⟨⟨⟨⟨⟨⟨⟨hyear⟩, hmonth⟩, hday, Date.isReal_of_isValid hvalid.1⟩, hweekday⟩, hhour⟩, hminute⟩,
      hsecond⟩
  · intro h
    have hhour := h.hour_le hwf
    have hminute := h.minute_le hwf
    have hsecond := h.second_le hwf
    refine ⟨⟨h.isValid_date hwf, ?_, ?_, ?_⟩, Int.natCast_nonneg _, h.year, h.month, h.day, h.weekday,
      h.hour, h.minute, h.second⟩ <;> unfold Cursor.wall <;> dsimp only <;> omega

/-! ### Carries -/

/-- Every unit is where a pass may leave it when it has to begin again: at most one beyond its
field. -/
structure Carried (c : Cursor) : Prop where
  year : 1970 ≤ c.year ∧ c.year ≤ 2200
  month : 1 ≤ c.month ∧ c.month ≤ 13
  day : 1 ≤ c.day ∧ c.day ≤ 32
  hour : c.hour ≤ 24
  minute : c.minute ≤ 60
  second : c.second ≤ 60

/-- Every value that a field admits lies below a given one. -/
def Past (e : Expression) (field : Field) (current : Nat) : Prop :=
  ∀ v ∈ (e.series field).values field.max, v < current

instance (e : Expression) (field : Field) (current : Nat) : Decidable (Past e field current) :=
  inferInstanceAs (Decidable (∀ _ ∈ _, _))

theorem not_past_of_admits {field : Field} {v : Nat} (h : e.Admits field v) : ¬Past e field v :=
  fun hpast => Nat.lt_irrefl v (hpast v h)

theorem not_past_zero (hwf : e.WellFormed) {field : Field} (hfield : field ≠ .weekdays := by decide) :
    ¬Past e field 0 := by
  obtain ⟨v, hv⟩ := List.exists_mem_of_ne_nil _ (hwf.fits hfield).values_ne_nil
  exact fun hpast => Nat.not_lt_zero v (hpast v hv)

/-- How often the date can still move on; years that no expression has are skipped at once. -/
def datesLeft (c : Cursor) : Nat :=
  ((2200 - max c.year 1969) * 13 + (13 - c.month)) * 32 + (32 - c.day)

/-- How often a unit of the time can still start over before the date moves on. -/
def carriesLeft (e : Expression) (c : Cursor) : Nat :=
  if Past e .seconds c.second then 3
  else if Past e .minutes c.minute then 2
  else if Past e .hours c.hour then 1
  else 0

/-- How many passes can still end with a carry. -/
def budget (e : Expression) (c : Cursor) : Nat :=
  datesLeft c + carriesLeft e c

theorem carriesLeft_le_three : carriesLeft e c ≤ 3 := by
  unfold carriesLeft
  split_ifs <;> omega

theorem carriesLeft_eq_zero (hhour : ¬Past e .hours c.hour) (hminute : ¬Past e .minutes c.minute)
    (hsecond : ¬Past e .seconds c.second) : carriesLeft e c = 0 := by
  rw [carriesLeft, if_neg hsecond, if_neg hminute, if_neg hhour]

theorem carriesLeft_le_one (hminute : ¬Past e .minutes c.minute)
    (hsecond : ¬Past e .seconds c.second) : carriesLeft e c ≤ 1 := by
  rw [carriesLeft, if_neg hsecond, if_neg hminute]
  split_ifs <;> omega

theorem carriesLeft_le_two (hsecond : ¬Past e .seconds c.second) : carriesLeft e c ≤ 2 := by
  rw [carriesLeft, if_neg hsecond]
  split_ifs <;> omega

theorem two_le_carriesLeft (hminute : Past e .minutes c.minute) : 2 ≤ carriesLeft e c := by
  rw [carriesLeft, if_pos hminute]
  split_ifs <;> omega

theorem carriesLeft_eq_three (hsecond : Past e .seconds c.second) : carriesLeft e c = 3 :=
  if_pos hsecond

theorem carriesLeft_midnight (hwf : e.WellFormed) (year month day : Nat) :
    carriesLeft e ⟨year, month, day, 0, 0, 0⟩ = 0 :=
  carriesLeft_eq_zero (not_past_zero hwf) (not_past_zero hwf) (not_past_zero hwf)

theorem budget_le_of_datesLeft_le {c' : Cursor} (hzero : carriesLeft e c' = 0)
    (h : datesLeft c' ≤ datesLeft c) : budget e c' ≤ budget e c := by
  unfold budget
  omega

theorem budget_lt_of_datesLeft_lt {c' : Cursor} (hzero : carriesLeft e c' = 0)
    (h : datesLeft c' < datesLeft c) : budget e c' < budget e c := by
  unfold budget
  omega

theorem budget_lt_of_carriesLeft_lt {c' : Cursor} (hdates : datesLeft c' = datesLeft c)
    (h : carriesLeft e c' < carriesLeft e c) : budget e c' < budget e c := by
  unfold budget
  omega

theorem budget_lt (e : Expression) (c : Cursor) : budget e c < 100000 := by
  have hcarries := carriesLeft_le_three (e := e) (c := c)
  unfold budget datesLeft
  omega

/-! ### Outcomes -/

/-- No match is passed over on the way from one cursor to another. -/
def PassesNone (e : Expression) (c c' : Cursor) : Prop :=
  ∀ m, Placed e m → c ≤ m → c' ≤ m

/-- What a stage or a pass may make of a cursor: one that has reached the goal, or one that has to be
gone through again, with a smaller budget, or nothing if no match is left. -/
inductive Outcome (e : Expression) (c : Cursor) (Goal : Cursor → Prop) : Step → Prop
  | settled {c' : Cursor} (goal : Goal c') (le : c ≤ c') (budget : budget e c' ≤ budget e c)
    (none : PassesNone e c c') : Outcome e c Goal (.settled c')
  | restart {c' : Cursor} (carried : Carried c') (lt : c < c') (budget : budget e c' < budget e c)
    (none : PassesNone e c c') : Outcome e c Goal (.restart c')
  | exhausted (none : ∀ m, Placed e m → ¬c ≤ m) : Outcome e c Goal .exhausted

theorem Outcome.settled_self {Goal : Cursor → Prop} (h : Goal c) : Outcome e c Goal (.settled c) :=
  .settled h le_rfl le_rfl fun _ _ hle => hle

/-- What comes of a cursor comes of every earlier one that no match separates from it. -/
theorem Outcome.of_settled {c' : Cursor} {Goal : Cursor → Prop} {s : Step} (hle : c ≤ c')
    (hbudget : budget e c' ≤ budget e c) (hnone : PassesNone e c c')
    (h : Outcome e c' Goal s) : Outcome e c Goal s := by
  cases h with
  | settled hgoal hle' hbudget' hnone' =>
    exact .settled hgoal (hle.trans hle') (hbudget'.trans hbudget)
      fun m hm hcm => hnone' m hm (hnone m hm hcm)
  | restart hcarried hlt hbudget' hnone' =>
    exact .restart hcarried (hle.trans_lt hlt) (hbudget'.trans_le hbudget)
      fun m hm hcm => hnone' m hm (hnone m hm hcm)
  | exhausted hnone' => exact .exhausted fun m hm hcm => hnone' m hm (hnone m hm hcm)

/-- Stages follow one another if each reaches what the next one relies on. -/
theorem descend_cons {stage : Stage} {rest : List Stage} {P Q : Cursor → Prop}
    (hstage : Outcome e c P (step e stage c))
    (hrest : ∀ c', P c' → Outcome e c' Q (descend e rest c')) :
    Outcome e c Q (descend e (stage :: rest) c) := by
  unfold descend
  generalize step e stage c = s at hstage
  cases hstage with
  | settled hgoal hle hbudget hnone => exact (hrest _ hgoal).of_settled hle hbudget hnone
  | restart hcarried hlt hbudget hnone => exact .restart hcarried hlt hbudget hnone
  | exhausted hnone => exact .exhausted hnone

/-! ### The stages of the date -/

theorem yearStage_outcome (hwf : e.WellFormed) : Outcome e c (YearPlaced e) (step e .year c) := by
  have hfits := hwf.date.years
  rw [step]
  refine place_elim hfits.values_ne_nil ?same ?later ?wrap
  case same =>
    intro hsame
    exact .settled_self ⟨hsame⟩
  case later =>
    intro v hv hlt hleast
    have hbounds : 1970 ≤ v ∧ v ≤ 2199 := hfits.bounds hv
    refine .settled ⟨hv⟩ (Cursor.le_iff.mpr (.inl hlt)) ?budget ?none
    case budget =>
      apply budget_le_of_datesLeft_le (carriesLeft_midnight hwf _ _ _)
      simp only [datesLeft, Field.min]
      omega
    case none =>
      intro m hm hcm
      -- a match in the year that is reached has no unit below the least values
      have hmonth := hm.month_bounds hwf
      have hday := hm.day_bounds hwf
      have hyear := hleast m.year hm.year
      rw [Cursor.le_iff] at hcm ⊢
      simp only [Cursor.clearBelow, Field.min]
      omega
  case wrap =>
    intro v hv hpast hleast
    refine .exhausted fun m hm hcm => ?_
    -- years do not start over
    have hyear := hpast m.year hm.year
    rw [Cursor.le_iff] at hcm
    omega

theorem monthStage_outcome (hwf : e.WellFormed) (h : YearPlaced e c) :
    Outcome e c (MonthPlaced e) (step e .month c) := by
  have hfits := hwf.date.months
  have hcyear := h.year_bounds hwf
  rw [step]
  refine place_elim hfits.values_ne_nil ?same ?later ?wrap
  case same =>
    intro hsame
    exact .settled_self { h with month := hsame }
  case later =>
    intro v hv hlt hleast
    have hbounds : 1 ≤ v ∧ v ≤ 12 := hfits.bounds hv
    refine .settled { h with month := hv } (Cursor.le_iff.mpr (.inr ⟨rfl, .inl hlt⟩)) ?budget ?none
    case budget =>
      apply budget_le_of_datesLeft_le (carriesLeft_midnight hwf _ _ _)
      simp only [datesLeft, Field.min]
      omega
    case none =>
      intro m hm hcm
      have hday := hm.day_bounds hwf
      have hmonth := hleast m.month hm.month
      rw [Cursor.le_iff] at hcm ⊢
      simp only [Cursor.clearBelow, Field.min]
      omega
  case wrap =>
    intro v hv hpast hleast
    have hbounds : 1 ≤ v ∧ v ≤ 12 := hfits.bounds hv
    refine .restart ?carried (Cursor.lt_iff.mpr (.inl (Nat.lt_succ_self _))) ?budget ?none
    case carried => constructor <;> simp only [Cursor.clearBelow, Field.min] <;> omega
    case budget =>
      apply budget_lt_of_datesLeft_lt (carriesLeft_midnight hwf _ _ _)
      simp only [datesLeft, Field.min]
      omega
    case none =>
      intro m hm hcm
      have hday := hm.day_bounds hwf
      have hmonth := hleast m.month hm.month
      -- so the match does not lie in the same year
      have hpast := hpast m.month hm.month
      rw [Cursor.le_iff] at hcm ⊢
      simp only [Cursor.clearBelow, Field.min]
      omega

/-- The days of a month are those of the series that it is long enough for. -/
theorem mem_values_daysInMonth (hwf : e.WellFormed) (h : MonthPlaced e c) {v : Nat} :
    v ∈ e.date.days.values (daysInMonth c.year c.month) ↔
      e.Admits .days v ∧ v ≤ monthLength c.year c.month := by
  have hyear := h.year_bounds hwf
  have hmonth := h.month_bounds hwf
  have hshort := (monthLength_bounds c.year hmonth).2
  rw [daysInMonth_eq hmonth (by unfold maxYear; omega)]
  exact Series.mem_values_of_le hshort Field.days.max_le_maxNumber

theorem day_mem_values (hwf : e.WellFormed) (h : MonthPlaced e c) {m : Cursor} (hm : Placed e m)
    (hyear : m.year = c.year) (hmonth : m.month = c.month) :
    m.day ∈ e.date.days.values (daysInMonth c.year c.month) := by
  have hle : m.day ≤ monthLength m.year m.month := hm.real.2
  rw [hyear, hmonth] at hle
  exact (mem_values_daysInMonth hwf h).mpr ⟨hm.day, hle⟩

/-- If the month has no day of the series, the search goes on in the next month. -/
theorem placeDay_of_eq_nil (hwf : e.WellFormed)
    (hnil : e.date.days.values (daysInMonth c.year c.month) = []) : placeDay e c =
      .restart (Cursor.clearBelow .day { c with month := c.month + 1, day := Field.days.min }) := by
  have hne : (e.date.days.values Field.days.max).isEmpty = false := by
    simpa using hwf.date.days.values_ne_nil
  rw [placeDay, Series.next?_eq_none_iff.mpr hnil]
  simp only [hne, Bool.false_eq_true, if_false]

/-- If it has one, the day is placed like any other unit. -/
theorem placeDay_of_ne_nil (hne : e.date.days.values (daysInMonth c.year c.month) ≠ []) :
    placeDay e c =
      place .day (e.date.days.next? c.day (daysInMonth c.year c.month)) (fun day => { c with day })
        fun c => .restart (Cursor.clearBelow .day { c with month := c.month + 1 }) := by
  unfold placeDay
  split
  next hnone => exact absurd (Series.next?_eq_none_iff.mp hnone) hne
  next => rfl

theorem dayStage_outcome (hwf : e.WellFormed) (h : MonthPlaced e c) :
    Outcome e c (DayPlaced e) (step e .day c) := by
  have hfits := hwf.date.days
  have hcyear := h.year_bounds hwf
  have hcmonth := h.month_bounds hwf
  rw [step]
  by_cases hnil : e.date.days.values (daysInMonth c.year c.month) = []
  · rw [placeDay_of_eq_nil hwf hnil]
    refine .restart ?carried (Cursor.lt_iff.mpr (.inr ⟨rfl, .inl (Nat.lt_succ_self _)⟩)) ?budget ?none
    case carried => constructor <;> simp only [Cursor.clearBelow, Field.min] <;> omega
    case budget =>
      apply budget_lt_of_datesLeft_lt (carriesLeft_midnight hwf _ _ _)
      simp only [datesLeft, Field.min]
      omega
    case none =>
      intro m hm hcm
      have hday := hm.day_bounds hwf
      -- the match does not lie in the same month, which has no day of the series
      have hother : ¬(m.year = c.year ∧ m.month = c.month) := by
        rintro ⟨hyear, hmonth⟩
        have hmem := day_mem_values hwf h hm hyear hmonth
        rw [hnil] at hmem
        exact List.not_mem_nil hmem
      rw [Cursor.le_iff] at hcm ⊢
      simp only [Cursor.clearBelow, Field.min]
      omega
  · rw [placeDay_of_ne_nil hnil]
    refine place_elim hnil ?same ?later ?wrap
    case same =>
      intro hsame
      obtain ⟨hday, hle⟩ := (mem_values_daysInMonth hwf h).mp hsame
      exact .settled_self { h with day := hday, real := ⟨(hfits.bounds hday).1, hle⟩ }
    case later =>
      intro v hv hlt hleast
      obtain ⟨hday, hle⟩ := (mem_values_daysInMonth hwf h).mp hv
      have hbounds : 1 ≤ v ∧ v ≤ 31 := hfits.bounds hday
      refine .settled { h with day := hday, real := ⟨hbounds.1, hle⟩ }
        (Cursor.le_iff.mpr (.inr ⟨rfl, .inr ⟨rfl, .inl hlt⟩⟩)) ?budget ?none
      case budget =>
        apply budget_le_of_datesLeft_le (carriesLeft_midnight hwf _ _ _)
        simp only [datesLeft]
        omega
      case none =>
        intro m hm hcm
        have hleast (hyear : m.year = c.year) (hmonth : m.month = c.month) :=
          hleast m.day (day_mem_values hwf h hm hyear hmonth)
        rw [Cursor.le_iff] at hcm ⊢
        simp only [Cursor.clearBelow, Field.min]
        omega
    case wrap =>
      intro v hv hpast hleast
      obtain ⟨hday, hle⟩ := (mem_values_daysInMonth hwf h).mp hv
      have hbounds : 1 ≤ v ∧ v ≤ 31 := hfits.bounds hday
      refine .restart ?carried (Cursor.lt_iff.mpr (.inr ⟨rfl, .inl (Nat.lt_succ_self _)⟩)) ?budget ?none
      case carried => constructor <;> simp only [Cursor.clearBelow, Field.min] <;> omega
      case budget =>
        apply budget_lt_of_datesLeft_lt (carriesLeft_midnight hwf _ _ _)
        simp only [datesLeft]
        omega
      case none =>
        intro m hm hcm
        -- in the same month its day would be past
        have hpast (hyear : m.year = c.year) (hmonth : m.month = c.month) :=
          hpast m.day (day_mem_values hwf h hm hyear hmonth)
        -- a day that this month does not have is later than all that it has
        have hleast : v ≤ m.day := by
          by_cases hshort : m.day ≤ monthLength c.year c.month
          · exact hleast m.day ((mem_values_daysInMonth hwf h).mpr ⟨hm.day, hshort⟩)
          · omega
        rw [Cursor.le_iff] at hcm ⊢
        simp only [Cursor.clearBelow, Field.min]
        omega

theorem weekdayStage_outcome (hwf : e.WellFormed) (h : DayPlaced e c) :
    Outcome e c (DatePlaced e) (step e .weekday c) := by
  have hcyear := h.year_bounds hwf
  have hcmonth := h.month_bounds hwf
  have hcday := h.day_bounds hwf
  rw [step, placeWeekday, Cursor.date?_eq_some (h.isValid_date hwf)]
  dsimp only
  split_ifs with hweekday
  · exact .settled_self { h with weekday := hweekday }
  · refine .restart ?carried
      (Cursor.lt_iff.mpr (.inr ⟨rfl, .inr ⟨rfl, .inl (Nat.lt_succ_self _)⟩⟩)) ?budget ?none
    case carried => constructor <;> simp only [Cursor.clearBelow, Field.min] <;> omega
    case budget =>
      apply budget_lt_of_datesLeft_lt (carriesLeft_midnight hwf _ _ _)
      simp only [datesLeft]
      omega
    case none =>
      intro m hm hcm
      -- the match does not lie on the same day, which falls on another weekday
      have hother : ¬(m.year = c.year ∧ m.month = c.month ∧ m.day = c.day) := by
        rintro ⟨hyear, hmonth, hday⟩
        have hmatch := hm.weekday
        unfold Cursor.wall at hmatch hweekday
        rw [hyear, hmonth, hday] at hmatch
        exact hweekday hmatch
      rw [Cursor.le_iff] at hcm ⊢
      simp only [Cursor.clearBelow, Field.min]
      omega

/-! ### The stages of the time -/

theorem hourStage_outcome (hwf : e.WellFormed) (h : DatePlaced e c) :
    Outcome e c (HourPlaced e) (step e .hour c) := by
  have hfits := hwf.time.hours
  have hcyear := h.year_bounds hwf
  have hcmonth := h.month_bounds hwf
  have hcday := h.day_bounds hwf
  rw [step]
  refine place_elim hfits.values_ne_nil ?same ?later ?wrap
  case same =>
    intro hsame
    exact .settled_self { h with hour := hsame }
  case later =>
    intro v hv hlt hleast
    refine .settled { h with hour := hv }
      (Cursor.le_iff.mpr (.inr ⟨rfl, .inr ⟨rfl, .inr ⟨rfl, .inl hlt⟩⟩⟩)) ?budget ?none
    case budget =>
      exact budget_le_of_datesLeft_le
        (carriesLeft_eq_zero (not_past_of_admits hv) (not_past_zero hwf) (not_past_zero hwf)) le_rfl
    case none =>
      intro m hm hcm
      have hhour := hleast m.hour hm.hour
      rw [Cursor.le_iff] at hcm ⊢
      simp only [Cursor.clearBelow, Field.min]
      omega
  case wrap =>
    intro v hv hpast hleast
    have hbounds : 0 ≤ v ∧ v ≤ 23 := hfits.bounds hv
    refine .restart ?carried
      (Cursor.lt_iff.mpr (.inr ⟨rfl, .inr ⟨rfl, .inl (Nat.lt_succ_self _)⟩⟩)) ?budget ?none
    case carried => constructor <;> simp only [Cursor.clearBelow, Field.min] <;> omega
    case budget =>
      refine budget_lt_of_datesLeft_lt
        (carriesLeft_eq_zero (not_past_of_admits hv) (not_past_zero hwf) (not_past_zero hwf)) ?_
      simp only [datesLeft, Cursor.clearBelow]
      omega
    case none =>
      intro m hm hcm
      have hhour := hleast m.hour hm.hour
      -- so the match does not lie on the same day
      have hpast := hpast m.hour hm.hour
      rw [Cursor.le_iff] at hcm ⊢
      simp only [Cursor.clearBelow, Field.min]
      omega

theorem minuteStage_outcome (hwf : e.WellFormed) (h : HourPlaced e c) :
    Outcome e c (MinutePlaced e) (step e .minute c) := by
  have hfits := hwf.time.minutes
  have hcyear := h.year_bounds hwf
  have hcmonth := h.month_bounds hwf
  have hcday := h.day_bounds hwf
  have hchour := h.hour_le hwf
  rw [step]
  refine place_elim hfits.values_ne_nil ?same ?later ?wrap
  case same =>
    intro hsame
    exact .settled_self { h with minute := hsame }
  case later =>
    intro v hv hlt hleast
    refine .settled { h with minute := hv }
      (Cursor.le_iff.mpr (.inr ⟨rfl, .inr ⟨rfl, .inr ⟨rfl, .inr ⟨rfl, .inl hlt⟩⟩⟩⟩)) ?budget ?none
    case budget =>
      exact budget_le_of_datesLeft_le (carriesLeft_eq_zero (not_past_of_admits h.hour)
        (not_past_of_admits hv) (not_past_zero hwf)) le_rfl
    case none =>
      intro m hm hcm
      have hminute := hleast m.minute hm.minute
      rw [Cursor.le_iff] at hcm ⊢
      simp only [Cursor.clearBelow, Field.min]
      omega
  case wrap =>
    intro v hv hpast hleast
    have hbounds : 0 ≤ v ∧ v ≤ 59 := hfits.bounds hv
    refine .restart ?carried
      (Cursor.lt_iff.mpr (.inr ⟨rfl, .inr ⟨rfl, .inr ⟨rfl, .inl (Nat.lt_succ_self _)⟩⟩⟩)) ?budget ?none
    case carried => constructor <;> simp only [Cursor.clearBelow, Field.min] <;> omega
    case budget =>
      -- the date stays, and of the time only the hour can still be past
      have hleft : carriesLeft e ⟨c.year, c.month, c.day, c.hour + 1, v, 0⟩ ≤ 1 :=
        carriesLeft_le_one (not_past_of_admits hv) (not_past_zero hwf)
      have hbefore : 2 ≤ carriesLeft e c := two_le_carriesLeft hpast
      exact budget_lt_of_carriesLeft_lt rfl (hleft.trans_lt hbefore)
    case none =>
      intro m hm hcm
      have hminute := hleast m.minute hm.minute
      -- nor in the same hour
      have hpast := hpast m.minute hm.minute
      rw [Cursor.le_iff] at hcm ⊢
      simp only [Cursor.clearBelow, Field.min]
      omega

theorem secondStage_outcome (hwf : e.WellFormed) (h : MinutePlaced e c) :
    Outcome e c (Placed e) (step e .second c) := by
  have hfits := hwf.time.seconds
  have hcyear := h.year_bounds hwf
  have hcmonth := h.month_bounds hwf
  have hcday := h.day_bounds hwf
  have hchour := h.hour_le hwf
  have hcminute := h.minute_le hwf
  rw [step]
  refine place_elim hfits.values_ne_nil ?same ?later ?wrap
  case same =>
    intro hsame
    exact .settled_self { h with second := hsame }
  case later =>
    intro v hv hlt hleast
    refine .settled { h with second := hv } (Cursor.le_iff.mpr
      (.inr ⟨rfl, .inr ⟨rfl, .inr ⟨rfl, .inr ⟨rfl, .inr ⟨rfl, hlt.le⟩⟩⟩⟩⟩)) ?budget ?none
    case budget =>
      exact budget_le_of_datesLeft_le (carriesLeft_eq_zero (not_past_of_admits h.hour)
        (not_past_of_admits h.minute) (not_past_of_admits hv)) le_rfl
    case none =>
      intro m hm hcm
      have hsecond := hleast m.second hm.second
      rw [Cursor.le_iff] at hcm ⊢
      simp only [Cursor.clearBelow]
      omega
  case wrap =>
    intro v hv hpast hleast
    have hbounds : 0 ≤ v ∧ v ≤ 59 := hfits.bounds hv
    refine .restart ?carried (Cursor.lt_iff.mpr
      (.inr ⟨rfl, .inr ⟨rfl, .inr ⟨rfl, .inr ⟨rfl, .inl (Nat.lt_succ_self _)⟩⟩⟩⟩)) ?budget ?none
    case carried => constructor <;> dsimp only <;> omega
    case budget =>
      -- the date stays, and the second is past no longer
      have hleft : carriesLeft e ⟨c.year, c.month, c.day, c.hour, c.minute + 1, v⟩ ≤ 2 :=
        carriesLeft_le_two (not_past_of_admits hv)
      have hbefore : carriesLeft e c = 3 := carriesLeft_eq_three hpast
      refine budget_lt_of_carriesLeft_lt rfl (hleft.trans_lt ?_)
      rw [hbefore]
      exact Nat.lt_succ_self 2
    case none =>
      intro m hm hcm
      have hsecond := hleast m.second hm.second
      -- nor in the same minute
      have hpast := hpast m.second hm.second
      rw [Cursor.le_iff] at hcm ⊢
      dsimp only
      omega

/-- A pass settles on the first match, or carries, or finds that no match is left. -/
theorem pass_outcome (hwf : e.WellFormed) (c : Cursor) : Outcome e c (Placed e) (pass e c) := by
  refine descend_cons (yearStage_outcome hwf) fun c h => ?_
  refine descend_cons (monthStage_outcome hwf h) fun c h => ?_
  refine descend_cons (dayStage_outcome hwf h) fun c h => ?_
  refine descend_cons (weekdayStage_outcome hwf h) fun c h => ?_
  refine descend_cons (hourStage_outcome hwf h) fun c h => ?_
  refine descend_cons (minuteStage_outcome hwf h) fun c h => ?_
  refine descend_cons (secondStage_outcome hwf h) fun c h => ?_
  exact .settled_self h

end Search

end Recurrence
