import Mathlib.Data.List.Sort
import Recurrence.Proofs.Span.Values
import Recurrence.Proofs.Weekday.Text

/-!
# The days of a series of weekdays

A series of weekdays has two views, and they agree: up to Sunday, a day is listed exactly if the series
contains it (`WeekdaySeries.mem_values`).  The days are strictly ascending
(`WeekdaySeries.pairwise_values`), so the list says no more than which days there are
(`WeekdaySeries.values_eq_values_iff`).

The days that a span stands for are those from its first to its last number
(`WeekdaySpan.Covers`).  The list leaves out those past Sunday; the other view leaves them out of a
range only, so it may contain a single number that no day has.  Reading a text gives numbers of days only
(`WeekdaySpan.WellFormed.bounds_of_covers`), and so the two views of what was read are the same
(`WeekdaySeries.views_agree`).
-/

namespace Recurrence

namespace WeekdaySpan

theorem mem_values {span : WeekdaySpan} {day : Nat} :
    day ∈ span.values ↔ span.contains day = true := by
  obtain ⟨first, last⟩ := span
  cases last with
  | none =>
    simp only [values, contains, List.mem_singleton, beq_iff_eq]
    exact eq_comm
  | some last =>
    simp only [values, contains, List.mem_range'_1, Bool.and_eq_true, decide_eq_true_eq]
    omega

theorem pairwise_values (span : WeekdaySpan) : span.values.Pairwise (· < ·) := by
  obtain ⟨first, last⟩ := span
  cases last with
  | none => exact List.pairwise_singleton _ _
  | some last => exact List.pairwise_lt_range'

/-- The numbers from the first to the last one, also where they are none of a day. -/
def Covers (span : WeekdaySpan) (day : Nat) : Prop :=
  span.first ≤ day ∧ day ≤ span.last.getD span.first

/-- A range ends with Sunday, and a single number counts whatever it is. -/
theorem contains_iff {span : WeekdaySpan} {day : Nat} :
    span.contains day = true ↔ span.Covers day ∧ (day ≤ 7 ∨ span.last = none) := by
  obtain ⟨first, last⟩ := span
  cases last with
  | none =>
    simp only [contains, Covers, beq_iff_eq, Option.getD_none, or_true, and_true]
    omega
  | some last =>
    simp only [contains, Covers, Bool.and_eq_true, decide_eq_true_eq, Option.getD_some,
      reduceCtorEq, or_false]
    omega

theorem contains_iff_covers {span : WeekdaySpan} {day : Nat} (hday : day ≤ 7) :
    span.contains day = true ↔ span.Covers day := by
  rw [contains_iff]
  exact and_iff_left (.inl hday)

theorem WellFormed.covers_first {span : WeekdaySpan} (h : span.WellFormed) :
    span.Covers span.first := by
  refine ⟨Nat.le_refl _, ?_⟩
  cases hlast : span.last with
  | none => exact Nat.le_refl _
  | some last => exact (h.first_lt last hlast).le

theorem WellFormed.bounds_of_covers {span : WeekdaySpan} {day : Nat} (h : span.WellFormed)
    (hcovers : span.Covers day) : 1 ≤ day ∧ day ≤ 7 := by
  obtain ⟨hlow, hhigh⟩ := hcovers
  refine ⟨h.first_mem.1.trans hlow, hhigh.trans ?_⟩
  cases hlast : span.last with
  | none => exact h.first_mem.2
  | some last => exact h.last_le last hlast

end WeekdaySpan

namespace WeekdaySeries

variable {series other : WeekdaySeries} {day : Nat}

theorem mem_values : day ∈ series.values ↔ day ≤ 7 ∧ series.contains day = true := by
  obtain ⟨spans⟩ := series
  rw [values, List.mem_filter, decide_eq_true_eq, and_comm]
  refine and_congr_right fun _ => ?_
  induction spans with
  | nil => simp [contains]
  | cons span spans ih =>
    rw [List.foldr_cons, Ascending.mem_union, ih, WeekdaySpan.mem_values, contains, contains,
      List.any_cons, Bool.or_eq_true]

theorem pairwise_values (series : WeekdaySeries) : series.values.Pairwise (· < ·) := by
  obtain ⟨spans⟩ := series
  refine List.Pairwise.filter _ ?_
  induction spans with
  | nil => exact List.Pairwise.nil
  | cons span spans ih => exact Ascending.pairwise_union span.pairwise_values ih

/-- Two series have the same days exactly if they contain the same ones, however they are written. -/
theorem values_eq_values_iff : series.values = other.values ↔
    ∀ day ≤ 7, series.contains day = true ↔ other.contains day = true :=
  Ascending.eq_iff series.pairwise_values other.pairwise_values (fun _ => mem_values)
    fun _ => mem_values

/-- The numbers that one of the spans covers. -/
def Covers (series : WeekdaySeries) (day : Nat) : Prop :=
  ∃ span ∈ series.spans, span.Covers day

theorem contains_eq_true_iff :
    series.contains day = true ↔ ∃ span ∈ series.spans, span.contains day = true := by
  rw [contains, List.any_eq_true]

theorem contains_iff_covers (hday : day ≤ 7) : series.contains day = true ↔ series.Covers day := by
  rw [contains_eq_true_iff]
  exact exists_congr fun _ => and_congr_right fun _ => WeekdaySpan.contains_iff_covers hday

theorem WellFormed.bounds_of_contains (h : series.WellFormed) (hday : series.contains day = true) :
    1 ≤ day ∧ day ≤ 7 := by
  obtain ⟨span, hspan, hcontains⟩ := contains_eq_true_iff.mp hday
  exact (h.spans span hspan).bounds_of_covers (WeekdaySpan.contains_iff.mp hcontains).1

theorem WellFormed.mem_values_iff (h : series.WellFormed) :
    day ∈ series.values ↔ series.contains day = true := by
  rw [mem_values]
  exact and_iff_right_of_imp fun hday => (h.bounds_of_contains hday).2

theorem WellFormed.values_ne_nil (h : series.WellFormed) : series.values ≠ [] := by
  obtain ⟨span, hspan⟩ := List.exists_mem_of_ne_nil series.spans h.ne_nil
  have hwf := h.spans span hspan
  have hcovers : series.Covers span.first := ⟨span, hspan, hwf.covers_first⟩
  have hfirst : span.first ≤ 7 := hwf.first_mem.2
  exact List.ne_nil_of_mem (mem_values.mpr ⟨hfirst, (contains_iff_covers hfirst).mpr hcovers⟩)

/-- The list of the days is strictly ascending and ends with Sunday at the latest.  Up to Sunday the two
views agree, whatever the numbers of the spans are, and say which days the spans cover.  Of a series
that was read from a text, the list has all the numbers that it contains, which are numbers of
days; there is one at least. -/
theorem views_agree (series : WeekdaySeries) :
    series.values.Pairwise (· < ·) ∧ (∀ day ∈ series.values, day ≤ 7) ∧
    (∀ day ≤ 7, (day ∈ series.values ↔ series.contains day = true) ∧
      (series.contains day = true ↔ series.Covers day)) ∧
    ∀ text, parse text = .ok series →
      (∀ day, day ∈ series.values ↔ series.contains day = true) ∧ series.values ≠ [] ∧
      ∀ day ∈ series.values, 1 ≤ day ∧ day ≤ 7 := by
  refine ⟨series.pairwise_values, fun day hday => (mem_values.mp hday).1, fun day hday => ?_,
    fun text hparse => ?_⟩
  · refine ⟨?_, contains_iff_covers hday⟩
    rw [mem_values]
    exact and_iff_right hday
  · have hwf : series.WellFormed := exists_parse_eq_ok_iff.mp ⟨text, hparse⟩
    refine ⟨fun _ => hwf.mem_values_iff, hwf.values_ne_nil, fun day hday => ?_⟩
    exact hwf.bounds_of_contains (hwf.mem_values_iff.mp hday)

/-- A range that runs down and one that runs past Sunday, with numbers before Monday and past Sunday: only
the number past Sunday is in one view and not in the other.  No text gives such a series; one that
names Thursday twice has it once in its list. -/
theorem views_agree_pastSunday :
    let built : WeekdaySeries := ⟨[⟨9, none⟩, ⟨5, some 2⟩, ⟨6, some 4294967295⟩, ⟨0, none⟩]⟩
    let written : WeekdaySeries := ⟨[⟨1, none⟩, ⟨3, some 5⟩, ⟨4, none⟩]⟩
    (built.values = [0, 6, 7] ∧ built.contains 9 = true ∧ 9 ∉ built.values) ∧
    (3 ≤ 7 ∧ built.contains 3 = false ∧ ¬built.Covers 3) ∧
    parse "Mon,Wed..Fri,thu" = .ok written ∧
    (∀ day, day ∈ [1, 3, 4, 5] ↔ written.contains day = true) ∧ ∀ text, parse text ≠ .ok built := by
  intro built written
  have hvalues : built.values = [0, 6, 7] := by decide +kernel
  have hnine : built.contains 9 = true := by decide
  have hwritten : written.values = [1, 3, 4, 5] := by decide +kernel
  have hparse : parse "Mon,Wed..Fri,thu" = .ok written := by decide +kernel
  obtain ⟨_, hsunday, hagree, hread⟩ := built.views_agree
  have hnot : 9 ∉ built.values := fun h => absurd (hsunday 9 h) (by decide)
  refine ⟨⟨hvalues, hnine, hnot⟩, ⟨by decide, by decide, ?_⟩, hparse, ?_, fun text hbuilt => ?_⟩
  · rw [← (hagree 3 (by decide)).2]
    decide
  · rw [← hwritten]
    exact (written.views_agree.2.2.2 _ hparse).1
  · exact hnot (((hread text hbuilt).1 9).mpr hnine)

end WeekdaySeries

end Recurrence
