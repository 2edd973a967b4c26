import Recurrence.Proofs.Span.Grammar
import Recurrence.Proofs.Weekday.Text

/-!
# The grammar of weekdays

A span of weekdays is the name of a day, or two names with two dots between them, of which the first is
that of an earlier day (`WeekdaySpan.Spelled`); upper and lower case are the same in a name
(`Weekday.Named`).  A list of weekdays has commas between its spans (`WeekdaySeries.Spelled`), and what
is read is exactly what is spelled so (`WeekdaySeries.read_eq_ok_iff`).
-/

namespace Recurrence

namespace Weekday

variable {name : List Char} {day : Weekday}

/-- The full name of a day or its abbreviation, in any mixture of upper and lower case. -/
def Named (name : List Char) (day : Weekday) : Prop :=
  ∃ spelling ∈ [day.fullName, day.abbreviation],
    name.map Char.toLower = spelling.map Char.toLower

theorem mem_all (day : Weekday) : day ∈ all := by
  cases day <;> decide

/-- No two days have a name in common. -/
theorem Named.unique {first second : Weekday} (hfirst : Named name first)
    (hsecond : Named name second) : first = second := by
  have hapart : ∀ first ∈ all, ∀ second ∈ all, ∀ s ∈ [first.fullName, first.abbreviation],
      ∀ t ∈ [second.fullName, second.abbreviation],
        s.map Char.toLower = t.map Char.toLower → first = second := by
    decide
  obtain ⟨s, hs, hname⟩ := hfirst
  obtain ⟨t, ht, hname'⟩ := hsecond
  exact hapart first first.mem_all second second.mem_all s hs t ht (hname ▸ hname')

theorem named_of_ofName? (h : ofName? name = some day) : Named name day := by
  unfold ofName? at h
  have hfound := List.find?_some h
  simpa [Named] using hfound

theorem ofName?_eq_some_iff : ofName? name = some day ↔ Named name day := by
  refine ⟨named_of_ofName?, fun h => ?_⟩
  cases hfind : ofName? name with
  | none =>
    unfold ofName? at hfind
    have hnot := List.find?_eq_none.mp hfind day day.mem_all
    exact absurd (by simpa [Named] using h) hnot
  | some found => rw [(named_of_ofName? hfind).unique h]

/-- A dot does not occur in the name of a day. -/
theorem Named.dot_not_mem (h : Named name day) : '.' ∉ name := by
  have hnot : ∀ day ∈ all, ∀ s ∈ [day.fullName, day.abbreviation], '.' ∉ s.map Char.toLower := by
    decide
  obtain ⟨s, hs, hname⟩ := h
  intro hdot
  exact hnot day day.mem_all s hs (hname ▸ List.mem_map_of_mem (f := Char.toLower) hdot)

end Weekday

namespace WeekdaySpan

variable {s : List Char} {span : WeekdaySpan} {day : Weekday}

/-- The name of a day, or those of the first and the last day of a range with two dots between them. -/
inductive Spelled : List Char → WeekdaySpan → Prop
  | single {name : List Char} {day : Weekday} (hname : Weekday.Named name day) :
      Spelled name ⟨day.number, none⟩
  | range {lower upper : List Char} {first last : Weekday} (hlower : Weekday.Named lower first)
      (hupper : Weekday.Named upper last) (hlt : first.number < last.number) :
      Spelled (lower ++ '.' :: '.' :: upper) ⟨first.number, some last.number⟩

theorem readDay_eq_ok_iff : readDay s = .ok day ↔ Weekday.Named s day := by
  rw [← Weekday.ofName?_eq_some_iff, readDay]
  cases Weekday.ofName? s <;> simp

theorem spelled_of_readRange (h : readRange s = .ok span) : Spelled s span := by
  unfold readRange at h
  split at h
  next lower upper hsplit =>
    obtain ⟨first, hfirst, h⟩ := bind_eq_ok_iff.mp h
    obtain ⟨last, hlast, h⟩ := bind_eq_ok_iff.mp h
    split_ifs at h with hlt
    cases h
    rw [Text.eq_of_splitDots_eq_pair hsplit]
    exact .range (readDay_eq_ok_iff.mp hfirst) (readDay_eq_ok_iff.mp hlast) hlt
  next => cases h

theorem read_eq_ok_iff : read s = .ok span ↔ Spelled s span := by
  constructor
  · intro h
    unfold read at h
    split_ifs at h
    · exact spelled_of_readRange h
    · obtain ⟨day, hday, rfl⟩ := map_eq_ok_iff.mp h
      exact .single (readDay_eq_ok_iff.mp hday)
  · intro h
    cases h with
    | single hname =>
      rw [read, Text.hasDots_of_not_mem hname.dot_not_mem, if_neg Bool.false_ne_true]
      exact map_eq_ok_iff.mpr ⟨_, readDay_eq_ok_iff.mpr hname, rfl⟩
    | @range lower upper first last hlower hupper hlt =>
      have hsplit : Text.splitDots (lower ++ '.' :: '.' :: upper) = [lower, upper] := by
        rw [Text.splitDots_append hlower.dot_not_mem, Text.splitDots_of_not_mem hupper.dot_not_mem]
      rw [read, Text.hasDots_append, if_pos rfl, readRange, hsplit]
      simp only [readDay_eq_ok_iff.mpr hlower, readDay_eq_ok_iff.mpr hupper, bind, Except.bind,
        if_pos hlt]
      rfl

end WeekdaySpan

namespace WeekdaySeries

variable {s : List Char} {series : WeekdaySeries}

/-- One or more spans with commas between them. -/
def Spelled (s : List Char) (series : WeekdaySeries) : Prop :=
  SpelledList WeekdaySpan.Spelled s series.spans

theorem read_eq_ok_iff : read s = .ok series ↔ Spelled s series := by
  rw [read, map_eq_ok_iff, Spelled,
    ← readElements_splitOn_eq_ok_iff (fun _ _ => WeekdaySpan.read_eq_ok_iff) 0]
  constructor
  · rintro ⟨spans, hread, rfl⟩
    exact hread
  · intro hread
    exact ⟨series.spans, hread, rfl⟩

end WeekdaySeries

end Recurrence
