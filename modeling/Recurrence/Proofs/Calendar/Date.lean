import Mathlib.Tactic.IntervalCases
import Mathlib.Tactic.SplitIfs
import Recurrence.Calendar.Date

/-!
# Dates and day numbers

The dates of the calendar and the numbers of the days stand in a one-to-one correspondence:
`Date.ofDayNumber` gives a real date with the number it was asked for
(`Date.isReal_ofDayNumber`, `Date.dayNumber_ofDayNumber`), and every real date is found by its number
(`Date.ofDayNumber_dayNumber`).  The numbers stand in the order of the dates, by year, month and day
(`Date.dayNumber_lt_iff`).  Both follow from the lengths of years and months alone: a year starts
where the one before it ends, and the months divide it.

So the day before the first of a month is the last day of the month before it, and the length of a month
can be found in this way (`daysInMonth_eq`).  A number past December has no month after it, and its
length is zero; the number before January has one, and gets the length of a December
(`daysInMonth_gregorian`).
-/

namespace Recurrence.Calendar

/-! ### Years and months -/

/-- The number of days of a year. -/
def yearLength (year : Int) : Nat :=
  if isLeap year then 366 else 365

theorem isLeap_iff {year : Int} :
    isLeap year = true ↔ year % 4 = 0 ∧ (year % 100 ≠ 0 ∨ year % 400 = 0) := by
  simp [isLeap]

theorem isLeap_natCast_iff {year : Nat} :
    isLeap year = true ↔ 4 ∣ year ∧ ¬100 ∣ year ∨ 400 ∣ year := by
  rw [isLeap_iff]
  omega

/-- A year starts where the one before it ends. -/
theorem yearStart_succ (year : Int) : yearStart (year + 1) = yearStart year + yearLength year := by
  unfold yearStart yearLength leapsThrough
  split_ifs with h <;> rw [isLeap_iff] at h <;> push_cast <;> omega

theorem daysBefore_succ (year : Int) (month : Nat) :
    daysBefore year (month + 1) = daysBefore year month + monthLength year month :=
  rfl

theorem daysBefore_mono (year : Int) {m n : Nat} (h : m ≤ n) :
    daysBefore year m ≤ daysBefore year n := by
  induction n, h using Nat.le_induction with
  | base => exact Nat.le_refl _
  | succ n _ ih =>
    rw [daysBefore_succ]
    omega

/-- Twelve months make a year. -/
theorem daysBefore_thirteen (year : Int) : daysBefore year 13 = yearLength year := by
  simp only [daysBefore, monthLength, yearLength]
  split_ifs <;> rfl

theorem month_bounds_of_pos {year : Int} {month : Nat} (h : 0 < monthLength year month) :
    1 ≤ month ∧ month ≤ 12 := by
  unfold monthLength at h
  split at h <;> omega

theorem monthLength_bounds (year : Int) {month : Nat} (h : 1 ≤ month ∧ month ≤ 12) :
    28 ≤ monthLength year month ∧ monthLength year month ≤ 31 := by
  obtain ⟨hlow, hhigh⟩ := h
  cases hleap : isLeap year <;> interval_cases month <;> simp [monthLength, hleap]

theorem monthLength_pos (year : Int) {month : Nat} (hmonth : 1 ≤ month ∧ month ≤ 12) :
    0 < monthLength year month :=
  Nat.lt_of_lt_of_le (by decide) (monthLength_bounds year hmonth).1

theorem yearStart_mono {a b : Int} (h : a ≤ b) : yearStart a ≤ yearStart b := by
  induction b, h using Int.leInduction with
  | base => exact Int.le_refl _
  | succ b _ ih =>
    rw [yearStart_succ]
    omega

theorem yearStart_add_le {a b : Int} (h : a < b) : yearStart a + 365 ≤ yearStart b := by
  have hsucc := yearStart_succ a
  have hmono := yearStart_mono (show a + 1 ≤ b from h)
  have hlength : 365 ≤ yearLength a := by
    unfold yearLength
    split_ifs <;> omega
  omega

/-- No month is shorter than in a common year, like the year 1, or longer than in a leap year, like the
year 0. -/
theorem monthLength_le (year : Int) (month : Nat) :
    monthLength 1 month ≤ monthLength year month ∧ monthLength year month ≤ monthLength 0 month := by
  have hcommon : isLeap 1 = false := rfl
  have hleap : isLeap 0 = true := rfl
  unfold monthLength
  rw [hcommon, hleap]
  cases isLeap year <;> split <;> simp

theorem daysBefore_le (year : Int) (month : Nat) :
    daysBefore 1 month ≤ daysBefore year month ∧ daysBefore year month ≤ daysBefore 0 month := by
  induction month with
  | zero => exact ⟨Nat.le_refl _, Nat.le_refl _⟩
  | succ month ih =>
    have hlength := monthLength_le year month
    rw [daysBefore_succ, daysBefore_succ, daysBefore_succ]
    omega

/-! ### The order of the dates -/

namespace Date

/-- The calendar has the month and the day, whatever the year. -/
def IsReal (date : Date) : Prop :=
  1 ≤ date.day ∧ date.day ≤ monthLength date.year date.month

theorem isReal_of_isValid {date : Date} (h : date.IsValid) : date.IsReal :=
  h.2.2

theorem IsReal.month_bounds {date : Date} (h : date.IsReal) : 1 ≤ date.month ∧ date.month ≤ 12 :=
  month_bounds_of_pos (lt_of_lt_of_le h.1 h.2)

theorem weekday_bounds (date : Date) : 1 ≤ date.weekday ∧ date.weekday ≤ 7 := by
  unfold weekday
  omega

/-- By year, then by month, then by day. -/
def Earlier (a b : Date) : Prop :=
  a.year < b.year ∨ a.year = b.year ∧ (a.month < b.month ∨ a.month = b.month ∧ a.day < b.day)

theorem yearStart_le_dayNumber {date : Date} (h : date.IsReal) :
    yearStart date.year ≤ date.dayNumber := by
  unfold dayNumber
  have := h.1
  omega

theorem dayNumber_lt_yearStart {date : Date} (h : date.IsReal) :
    date.dayNumber < yearStart (date.year + 1) := by
  have hmonth := h.month_bounds
  have hend : daysBefore date.year (date.month + 1) ≤ daysBefore date.year 13 :=
    daysBefore_mono date.year (by omega)
  rw [daysBefore_succ, daysBefore_thirteen] at hend
  rw [yearStart_succ]
  unfold dayNumber
  have := h.2
  omega

theorem dayNumber_lt_of_earlier {a b : Date} (ha : a.IsReal) (hb : b.IsReal) (h : a.Earlier b) :
    a.dayNumber < b.dayNumber := by
  rcases h with hyear | ⟨hyear, hmonth | ⟨hmonth, hday⟩⟩
  · calc a.dayNumber < yearStart (a.year + 1) := dayNumber_lt_yearStart ha
      _ ≤ yearStart b.year := yearStart_mono hyear
      _ ≤ b.dayNumber := yearStart_le_dayNumber hb
  · -- the earlier month ends before the later one starts
    have hbefore := daysBefore_mono b.year (show a.month + 1 ≤ b.month from hmonth)
    rw [daysBefore_succ] at hbefore
    have haday := ha.2
    have hbday := hb.1
    rw [hyear] at haday
    unfold dayNumber
    rw [hyear]
    omega
  · unfold dayNumber
    rw [hyear, hmonth]
    omega

theorem earlier_or_eq_or_earlier (a b : Date) : a.Earlier b ∨ a = b ∨ b.Earlier a := by
  by_cases heq : a = b
  · exact .inr (.inl heq)
  · have hne : ¬(a.year = b.year ∧ a.month = b.month ∧ a.day = b.day) := by
      rintro ⟨hy, hm, hd⟩
      cases a
      cases b
      exact heq (by simp_all)
    unfold Earlier
    omega

theorem dayNumber_lt_iff {a b : Date} (ha : a.IsReal) (hb : b.IsReal) :
    a.dayNumber < b.dayNumber ↔ a.Earlier b := by
  refine ⟨fun hlt => ?_, dayNumber_lt_of_earlier ha hb⟩
  rcases earlier_or_eq_or_earlier a b with h | rfl | h
  · exact h
  · omega
  · have := dayNumber_lt_of_earlier hb ha h
    omega

theorem dayNumber_inj {a b : Date} (ha : a.IsReal) (hb : b.IsReal)
    (h : a.dayNumber = b.dayNumber) : a = b := by
  rcases earlier_or_eq_or_earlier a b with hlt | heq | hlt
  · have := dayNumber_lt_of_earlier ha hb hlt
    omega
  · exact heq
  · have := dayNumber_lt_of_earlier hb ha hlt
    omega

/-! ### The date with a given number -/

/-- The guess by the mean length of a year is off by one at most. -/
theorem yearOf_bounds (n : Int) : yearStart (yearOf n) ≤ n ∧ n < yearStart (yearOf n + 1) := by
  have hguess : yearStart (n * 400 / 146097 + 1970 - 1) ≤ n ∧
      n < yearStart (n * 400 / 146097 + 1970 + 1 + 1) := by
    unfold yearStart leapsThrough
    omega
  unfold yearOf
  dsimp only
  split_ifs with h1 h2
  · exact ⟨hguess.1, by rwa [Int.sub_add_cancel]⟩
  · exact ⟨h2, hguess.2⟩
  · omega

/-- Searching the numbers from `n + 1` down to 2 gives the last one that passes, or 1. -/
theorem getD_find?_reverse_range' (p : Nat → Bool) (n : Nat) :
    let found := ((List.range' 2 n).reverse.find? p).getD 1
    1 ≤ found ∧ found ≤ n + 1 ∧ (found = 1 ∨ p found = true) ∧
      ∀ k, found < k → k ≤ n + 1 → p k = false := by
  induction n with
  | zero =>
    refine ⟨Nat.le_refl _, Nat.le_refl _, .inl rfl, fun k hlt hle => ?_⟩
    have : 1 < k := hlt
    omega
  | succ n ih =>
    rw [List.range'_concat, List.reverse_concat, List.find?_cons]
    cases hp : p (2 + 1 * n) with
    | true =>
      refine ⟨?_, ?_, .inr hp, fun k hlt hle => ?_⟩ <;>
        simp only [Option.getD_some] at * <;> omega
    | false =>
      dsimp only
      obtain ⟨hlow, hhigh, hfound, habove⟩ := ih
      refine ⟨hlow, by omega, hfound, fun k hlt hle => ?_⟩
      rcases Nat.lt_or_eq_of_le hle with h | rfl
      · exact habove k hlt (by omega)
      · rw [show n + 1 + 1 = 2 + 1 * n by omega]
        exact hp

/-- A day of a year belongs to the month that it is found to belong to. -/
theorem monthOf_bounds {year : Int} {dayOfYear : Nat} (h : dayOfYear < yearLength year) :
    (1 ≤ monthOf year dayOfYear ∧ monthOf year dayOfYear ≤ 12) ∧
      daysBefore year (monthOf year dayOfYear) ≤ dayOfYear ∧
      dayOfYear < daysBefore year (monthOf year dayOfYear + 1) := by
  obtain ⟨hlow, hhigh, hfound, habove⟩ : 1 ≤ monthOf year dayOfYear ∧ _ :=
    getD_find?_reverse_range' (fun month => daysBefore year month ≤ dayOfYear) 11
  refine ⟨⟨hlow, hhigh⟩, ?_, ?_⟩
  · rcases hfound with h1 | hle
    · rw [show monthOf year dayOfYear = 1 from h1]
      exact Nat.zero_le _
    · exact of_decide_eq_true hle
  · rcases Nat.lt_or_eq_of_le hhigh with hlt | heq
    · have := habove (monthOf year dayOfYear + 1) (Nat.lt_succ_self _) hlt
      rw [decide_eq_false_iff_not] at this
      omega
    · rw [show monthOf year dayOfYear = 12 from heq, daysBefore_thirteen]
      exact h

theorem ofDayNumber_spec (n : Int) : (ofDayNumber n).IsReal ∧ (ofDayNumber n).dayNumber = n := by
  obtain ⟨hstart, hend⟩ := yearOf_bounds n
  rw [yearStart_succ] at hend
  have hday : (n - yearStart (yearOf n)).toNat < yearLength (yearOf n) := by omega
  obtain ⟨hmonth, hlow, hhigh⟩ := monthOf_bounds hday
  rw [daysBefore_succ] at hhigh
  unfold ofDayNumber
  dsimp only
  constructor
  · unfold IsReal
    dsimp only
    omega
  · unfold dayNumber
    dsimp only
    omega

theorem isReal_ofDayNumber (n : Int) : (ofDayNumber n).IsReal :=
  (ofDayNumber_spec n).1

@[simp]
theorem dayNumber_ofDayNumber (n : Int) : (ofDayNumber n).dayNumber = n :=
  (ofDayNumber_spec n).2

theorem ofDayNumber_dayNumber {date : Date} (h : date.IsReal) : ofDayNumber date.dayNumber = date :=
  dayNumber_inj (isReal_ofDayNumber _) h (dayNumber_ofDayNumber _)

end Date

/-! ### The day before the first -/

/-- The day before is the one with the number before. -/
theorem Date.pred_eq {date before : Date} (hreal : before.IsReal)
    (h : date.dayNumber = before.dayNumber + 1) : date.pred = before := by
  rw [Date.pred, h, Int.add_sub_cancel, Date.ofDayNumber_dayNumber hreal]

theorem isReal_last (year : Int) (month : Nat) (hmonth : 1 ≤ month ∧ month ≤ 12) :
    Date.IsReal ⟨year, month, monthLength year month⟩ :=
  ⟨monthLength_pos year hmonth, Nat.le_refl _⟩

/-- Within a year, the last day of a month comes before the first day of the next one. -/
theorem pred_first (year : Int) {month : Nat} (hmonth : 1 ≤ month ∧ month ≤ 12) :
    Date.pred ⟨year, month + 1, 1⟩ = ⟨year, month, monthLength year month⟩ := by
  refine Date.pred_eq (isReal_last year month hmonth) ?_
  unfold Date.dayNumber
  dsimp only
  rw [daysBefore_succ]
  push_cast
  omega

/-- The last day of December comes before the first day of the next year. -/
theorem pred_newYear (year : Int) : Date.pred ⟨year + 1, 1, 1⟩ = ⟨year, 12, 31⟩ := by
  refine Date.pred_eq (isReal_last year 12 (by decide)) ?_
  have hdec : daysBefore year 12 + 31 = yearLength year := daysBefore_thirteen year
  have hjan : daysBefore (year + 1) 1 = 0 := rfl
  unfold Date.dayNumber
  dsimp only
  rw [yearStart_succ, hjan]
  push_cast
  omega

/-! ### The length of a month -/

section DaysInMonth

variable {year month : Nat}

theorem isValid_first {year : Int} (hmonth : 1 ≤ month ∧ month ≤ 12) (hmin : minYear ≤ year)
    (hmax : year ≤ maxYear) : Date.IsValid ⟨year, month, 1⟩ :=
  ⟨hmin, hmax, Nat.le_refl 1, monthLength_pos year hmonth⟩

theorem minYear_le_natCast (year : Nat) : minYear ≤ (year : Int) := by
  unfold minYear
  omega

theorem firstOfNextMonth_twelve (year : Nat) : firstOfNextMonth year 12 = ⟨year + 1, 1, 1⟩ :=
  rfl

theorem firstOfNextMonth_of_ne (year : Nat) (hmonth : month ≠ 12) :
    firstOfNextMonth year month = ⟨year, month + 1, 1⟩ :=
  if_neg hmonth

theorem daysInMonth_of_isValid (h : (firstOfNextMonth year month).IsValid) :
    daysInMonth year month = (firstOfNextMonth year month).pred.day :=
  if_pos h

theorem daysInMonth_of_not_isValid (h : ¬(firstOfNextMonth year month).IsValid) :
    daysInMonth year month = 0 :=
  if_neg h

/-- The last day of a month, whose number is the length of the month, comes before the first day of
the next one. -/
theorem daysInMonth_eq (hmonth : 1 ≤ month ∧ month ≤ 12) (hyear : (year : Int) < maxYear) :
    daysInMonth year month = monthLength year month := by
  have hmin := minYear_le_natCast year
  by_cases h12 : month = 12
  · have hnext : (firstOfNextMonth year 12).IsValid :=
      isValid_first (by decide) (by omega) (by omega)
    rw [h12, daysInMonth_of_isValid hnext, firstOfNextMonth_twelve, pred_newYear]
    rfl
  · have hfirst := firstOfNextMonth_of_ne year h12
    have hnext : (firstOfNextMonth year month).IsValid := by
      rw [hfirst]
      exact isValid_first (by omega) hmin hyear.le
    rw [daysInMonth_of_isValid hnext, hfirst, pred_first year hmonth]

/-- Whatever the month is, its last day has the number 31 at most. -/
theorem daysInMonth_le (year month : Nat) : daysInMonth year month ≤ 31 := by
  by_cases h : (firstOfNextMonth year month).IsValid
  · rw [daysInMonth_of_isValid h]
    have hreal := Date.isReal_ofDayNumber ((firstOfNextMonth year month).dayNumber - 1)
    exact hreal.2.trans (monthLength_bounds _ hreal.month_bounds).2
  · rw [daysInMonth_of_not_isValid h]
    exact Nat.zero_le _

/-- The month before January is a December. -/
theorem daysInMonth_zero (hyear : (year : Int) ≤ maxYear) : daysInMonth year 0 = 31 := by
  have hfirst : firstOfNextMonth year 0 = ⟨(year : Int) - 1 + 1, 1, 1⟩ := by
    rw [Int.sub_add_cancel]
    rfl
  have hnext : (firstOfNextMonth year 0).IsValid :=
    isValid_first (by decide) (minYear_le_natCast year) hyear
  rw [daysInMonth_of_isValid hnext, hfirst, pred_newYear]

theorem monthLength_eq_zero (year : Int) (hmonth : 12 < month) : monthLength year month = 0 := by
  by_contra hne
  have hbounds := month_bounds_of_pos (Nat.pos_of_ne_zero hne)
  omega

/-- Past December no month comes after another. -/
theorem daysInMonth_of_twelve_lt (year : Nat) (hmonth : 12 < month) : daysInMonth year month = 0 := by
  refine daysInMonth_of_not_isValid fun hnext => ?_
  rw [firstOfNextMonth_of_ne year (by omega)] at hnext
  have hbounds : 1 ≤ month + 1 ∧ month + 1 ≤ 12 := (Date.isReal_of_isValid hnext).month_bounds
  omega

/-- Only the number zero gets days that the calendar does not have. -/
theorem daysInMonth_eq_monthLength_iff (hyear : (year : Int) < maxYear) :
    daysInMonth year month = monthLength year month ↔ month ≠ 0 := by
  constructor
  · rintro heq rfl
    rw [daysInMonth_zero hyear.le] at heq
    cases heq
  · intro hne
    rcases Nat.lt_or_ge 12 month with hlt | hle
    · rw [daysInMonth_of_twelve_lt year hlt, monthLength_eq_zero year hlt]
    · exact daysInMonth_eq ⟨Nat.pos_of_ne_zero hne, hle⟩ hyear

/-- The days that the calendar has in a month are those up to the answer, unless the number is zero. -/
theorem forall_isValid_iff_daysInMonth (hyear : (year : Int) < maxYear) :
    (∀ day, Date.IsValid ⟨year, month, day⟩ ↔ 1 ≤ day ∧ day ≤ daysInMonth year month) ↔
      month ≠ 0 := by
  have hvalid (day : Nat) :
      Date.IsValid ⟨year, month, day⟩ ↔ 1 ≤ day ∧ day ≤ monthLength year month :=
    (and_iff_right (minYear_le_natCast year)).trans (and_iff_right hyear.le)
  rw [← daysInMonth_eq_monthLength_iff hyear]
  constructor
  · intro hdays
    have hsame (day : Nat) := (hvalid day).symm.trans (hdays day)
    have hanswer := hsame (daysInMonth year month)
    have hlength := hsame (monthLength year month)
    omega
  · intro heq day
    rw [hvalid, heq]

/-- In every year that another one follows, the months have their lengths by the rule of the Gregorian
calendar, and a number past December has no days.  The number zero, which is that of no month either, is
answered like a December.  It is the only one for which the days that the calendar has are not those
up to the answer. -/
theorem daysInMonth_gregorian (hyear : (year : Int) < maxYear) :
    (∀ month ∈ [1, 3, 5, 7, 8, 10, 12], daysInMonth year month = 31) ∧
    (∀ month ∈ [4, 6, 9, 11], daysInMonth year month = 30) ∧
    daysInMonth year 2 = (if 4 ∣ year ∧ ¬100 ∣ year ∨ 400 ∣ year then 29 else 28) ∧
    (∀ month, 12 < month → daysInMonth year month = 0) ∧ daysInMonth year 0 = 31 ∧
    ∀ month, (∀ day, Date.IsValid ⟨year, month, day⟩ ↔ 1 ≤ day ∧ day ≤ daysInMonth year month) ↔
      month ≠ 0 := by
  have hlength (month : Nat) (hne : month ≠ 0) : daysInMonth year month = monthLength year month :=
    (daysInMonth_eq_monthLength_iff hyear).mpr hne
  refine ⟨?_, ?_, ?_, fun _ => daysInMonth_of_twelve_lt year, daysInMonth_zero hyear.le,
    fun _ => forall_isValid_iff_daysInMonth hyear⟩
  · simp [hlength, monthLength]
  · simp [hlength, monthLength]
  · rw [hlength 2 (by decide)]
    exact if_congr isLeap_natCast_iff rfl rfl

/-- A century that is no leap year, and a late year that is one. -/
theorem daysInMonth_gregorian_february :
    (((2100 : Nat) : Int) < maxYear ∧ daysInMonth 2100 2 = 28) ∧
    ((262000 : Nat) : Int) < maxYear ∧ daysInMonth 262000 2 = 29 ∧
    (12 ∈ [1, 3, 5, 7, 8, 10, 12] ∧ daysInMonth 262000 12 = 31) ∧
    (11 ∈ [4, 6, 9, 11] ∧ daysInMonth 262000 11 = 30) ∧
    (12 < 4294967294 ∧ daysInMonth 262000 4294967294 = 0) ∧
    ¬∀ day, Date.IsValid ⟨262000, 0, day⟩ ↔ 1 ≤ day ∧ day ≤ daysInMonth 262000 0 := by
  have hcentury : ((2100 : Nat) : Int) < maxYear := by decide
  have hlate : ((262000 : Nat) : Int) < maxYear := by decide
  obtain ⟨-, -, hcommon, -⟩ := daysInMonth_gregorian hcentury
  obtain ⟨hlong, hshort, hleap, hpast, -, hdays⟩ := daysInMonth_gregorian hlate
  exact ⟨⟨hcentury, hcommon⟩, hlate, hleap, ⟨by decide, hlong 12 (by decide)⟩,
    ⟨by decide, hshort 11 (by decide)⟩, ⟨by decide, hpast 4294967294 (by decide)⟩,
    fun h => (hdays 0).mp h rfl⟩

/-- Not every number that is that of no month has no days: number zero of the year 2024 has 31. -/
theorem not_daysInMonth_eq_zero :
    ¬∀ year month : Nat, year ≤ 262000 → month < 4294967295 → ¬(1 ≤ month ∧ month ≤ 12) →
      daysInMonth year month = 0 := by
  intro h
  have hzero : daysInMonth 2024 0 = 0 := h 2024 0 (by decide) (by decide) (by decide)
  have hlast : daysInMonth 2024 0 = 31 := by decide
  omega

end DaysInMonth

end Recurrence.Calendar
