import Recurrence.Proofs.Calendar.Date
import Recurrence.Proofs.Expression.Text
import Recurrence.Proofs.Weekday.Values
import Recurrence.Search.Basic
import Recurrence.Zone.Standard

/-!
# How an expression is spelled

Two expressions are `Alike` if each field has the same values in both, whatever spans they are made of.
The search asks a field for nothing but its values, and so it takes the same course for both of them, stage
by stage (`Expression.Alike.step_eq`) and pass by pass (`Expression.Alike.run_eq`), and what it finds is the
same (`Expression.nextWithin_of_alike`).

Days are asked for up to the length of a month, which is less than the bound up to which they are known
to agree, and weekdays one by one; neither is more than the values say.
-/

namespace Recurrence

open Calendar

theorem Search.place_congr {stage : Stage} {next next' : Option Successor} {put : Nat → Cursor}
    {carry : Cursor → Step} (h : next = next') :
    place stage next put carry = place stage next' put carry := by
  rw [h]

namespace Expression

variable [ZoneDatabase] {e e' : Expression}

/-- Each field has the same values, up to the greatest one that it may have. -/
structure Alike (e e' : Expression) : Prop where
  weekdays : e.weekdays.values = e'.weekdays.values
  fields : ∀ field ≠ .weekdays, (e.series field).values field.max = (e'.series field).values field.max

/-- Only the numbers that are covered matter. -/
theorem alike_iff : e.Alike e' ↔
    (∀ day ≤ 7, e.weekdays.contains day = true ↔ e'.weekdays.contains day = true) ∧
    ∀ field ≠ .weekdays, ∀ v ≤ field.max, (e.series field).Covers v ↔ (e'.series field).Covers v := by
  have hfield (field : Field) : (e.series field).values field.max = (e'.series field).values field.max ↔
      ∀ v ≤ field.max, (e.series field).Covers v ↔ (e'.series field).Covers v :=
    Series.values_eq_values_iff field.max_le_maxNumber
  constructor
  · intro h
    exact ⟨WeekdaySeries.values_eq_values_iff.mp h.weekdays,
      fun field hne => (hfield field).mp (h.fields field hne)⟩
  · rintro ⟨hweekdays, hfields⟩
    exact ⟨WeekdaySeries.values_eq_values_iff.mpr hweekdays,
      fun field hne => (hfield field).mpr (hfields field hne)⟩

namespace Alike

open Search

/-! ### What a stage asks for -/

theorem next?_eq (h : e.Alike e') (field : Field) (hne : field ≠ .weekdays) (current : Nat) :
    (e.series field).next? current field.max = (e'.series field).next? current field.max := by
  rw [Series.next?, Series.next?, h.fields field hne]

/-- The days of a month are those of the longest one, as far as it goes. -/
theorem values_daysInMonth_eq (h : e.Alike e') (year month : Nat) :
    e.date.days.values (daysInMonth year month) = e'.date.days.values (daysInMonth year month) := by
  have hle : daysInMonth year month ≤ Field.days.max := daysInMonth_le year month
  have hdays : e.date.days.values Field.days.max = e'.date.days.values Field.days.max :=
    h.fields .days (by decide)
  rw [Series.values_eq_filter hle Field.days.max_le_maxNumber,
    Series.values_eq_filter hle Field.days.max_le_maxNumber, hdays]

theorem contains_weekday_eq (h : e.Alike e') (date : Date) :
    e.weekdays.contains date.weekday = e'.weekdays.contains date.weekday :=
  Bool.eq_iff_iff.mpr
    (WeekdaySeries.values_eq_values_iff.mp h.weekdays date.weekday date.weekday_bounds.2)

/-! ### The course of a search -/

theorem placeDay_eq (h : e.Alike e') (c : Cursor) : placeDay e c = placeDay e' c := by
  have hnext : e.date.days.next? c.day (daysInMonth c.year c.month)
      = e'.date.days.next? c.day (daysInMonth c.year c.month) := by
    rw [Series.next?, Series.next?, h.values_daysInMonth_eq]
  have hdays : e.date.days.values Field.days.max = e'.date.days.values Field.days.max :=
    h.fields .days (by decide)
  rw [placeDay, placeDay, hnext, hdays]

theorem placeWeekday_eq (h : e.Alike e') (c : Cursor) : placeWeekday e c = placeWeekday e' c := by
  rw [placeWeekday, placeWeekday]
  cases c.date? with
  | none => rfl
  | some date => dsimp only; rw [h.contains_weekday_eq]

/-- Every stage comes to the same, whatever the cursor it is entered with. -/
theorem step_eq (h : e.Alike e') (stage : Stage) (c : Cursor) : step e stage c = step e' stage c := by
  cases stage with
  | year =>
    rw [step, step]
    exact place_congr (h.next?_eq .years (by decide) c.year)
  | month =>
    rw [step, step]
    exact place_congr (h.next?_eq .months (by decide) c.month)
  | day => exact h.placeDay_eq c
  | weekday => exact h.placeWeekday_eq c
  | hour =>
    rw [step, step]
    exact place_congr (h.next?_eq .hours (by decide) c.hour)
  | minute =>
    rw [step, step]
    exact place_congr (h.next?_eq .minutes (by decide) c.minute)
  | second =>
    rw [step, step]
    exact place_congr (h.next?_eq .seconds (by decide) c.second)

theorem descend_eq (h : e.Alike e') (stages : List Stage) (c : Cursor) :
    descend e stages c = descend e' stages c := by
  induction stages generalizing c with
  | nil => rfl
  | cons stage rest ih =>
    rw [descend, descend, h.step_eq]
    cases step e' stage c with
    | settled c => exact ih c
    | restart c => rfl
    | exhausted => rfl

/-- A search makes the same passes for both. -/
theorem run_eq (h : e.Alike e') (clock : Clock) (after : Instant) (passes : Nat) (c : Cursor) :
    run e clock after passes c = run e' clock after passes c := by
  have hpass (c : Cursor) : pass e c = pass e' c := h.descend_eq Stage.all c
  induction passes generalizing c with
  | zero => rfl
  | succ passes ih => simp only [run, hpass, ih]

theorem nextBy_eq (h : e.Alike e') (clock : Clock) (limit : SearchLimit) (after : Instant) :
    e.nextBy clock limit after = e'.nextBy clock limit after :=
  h.run_eq clock after _ _

end Alike

/-- What is found depends only on the values of the fields, under every limit and after every instant, and
so do the occurrences.  Fields have the same values exactly if they cover the same numbers; so the order of
the spans, spans that repeat or overlap others, and steps that could be written as lists do not matter. -/
theorem nextWithin_of_alike (e e' : Expression) :
    (e.Alike e' → e.zone = e'.zone → ∀ (limit : SearchLimit) (after : Instant),
      e.nextWithin limit after = e'.nextWithin limit after ∧
      ∀ count, e.occurrences limit after count = e'.occurrences limit after count) ∧
    (e.Alike e' ↔
      (∀ day ≤ 7, e.weekdays.contains day = true ↔ e'.weekdays.contains day = true) ∧
      ∀ field ≠ .weekdays, ∀ v ≤ field.max,
        (e.series field).Covers v ↔ (e'.series field).Covers v) := by
  refine ⟨fun h hzone limit after => ?_, alike_iff⟩
  have hnext : e.nextWithin limit = e'.nextWithin limit := by
    funext after
    rw [nextWithin, nextWithin, hzone, h.nextBy_eq]
  exact ⟨congrFun hnext after, fun count => by rw [occurrences, occurrences, hnext]⟩

end Expression

/-- A list of weekdays in another order, steps for lists, and ranges that overlap. -/
theorem Expression.nextWithin_of_alike_respelled : ∃ e e',
    parse "Mon..Wed,Tue *-2/2-1..20,10..31 0/6:0,30" = .ok e ∧
    parse "Wed,Mon,Tue *-12,10,8,6,4,2-1..31 18,12,6,0,0:0/30" = .ok e' ∧
    e ≠ e' ∧ e.Alike e' ∧ e.zone = e'.zone ∧
    ∀ (limit : SearchLimit) (after : Instant), e.nextWithin limit after = e'.nextWithin limit after ∧
      ∀ count, e.occurrences limit after count = e'.occurrences limit after count := by
  let e : Expression :=
    ⟨⟨[⟨1, some 3⟩, ⟨2, none⟩]⟩,
      ⟨.omitted .years, ⟨[⟨2, none, some 2⟩]⟩, ⟨[⟨1, some 20, none⟩, ⟨10, some 31, none⟩]⟩⟩,
      ⟨⟨[⟨0, none, some 6⟩]⟩, ⟨[⟨0, none, none⟩, ⟨30, none, none⟩]⟩, .omitted .seconds⟩, .machine⟩
  let e' : Expression :=
    ⟨⟨[⟨3, none⟩, ⟨1, none⟩, ⟨2, none⟩]⟩,
      ⟨.omitted .years, ⟨[⟨12, none, none⟩, ⟨10, none, none⟩, ⟨8, none, none⟩, ⟨6, none, none⟩,
        ⟨4, none, none⟩, ⟨2, none, none⟩]⟩, ⟨[⟨1, some 31, none⟩]⟩⟩,
      ⟨⟨[⟨18, none, none⟩, ⟨12, none, none⟩, ⟨6, none, none⟩, ⟨0, none, none⟩, ⟨0, none, none⟩]⟩,
        ⟨[⟨0, none, some 30⟩]⟩, .omitted .seconds⟩, .machine⟩
  have parsed : parse "Mon..Wed,Tue *-2/2-1..20,10..31 0/6:0,30" = .ok e := by decide +kernel
  have parsed' : parse "Wed,Mon,Tue *-12,10,8,6,4,2-1..31 18,12,6,0,0:0/30" = .ok e' := by
    decide +kernel
  have halike : e.Alike e' := by
    refine ⟨by decide +kernel, fun field _ => ?_⟩
    cases field <;> decide +kernel
  exact ⟨e, e', parsed, parsed', by decide +kernel, halike, rfl,
    (nextWithin_of_alike e e').1 halike rfl⟩

end Recurrence
