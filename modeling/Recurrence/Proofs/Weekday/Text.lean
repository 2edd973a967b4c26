import Mathlib.Tactic.IntervalCases
import Recurrence.Proofs.Reading
import Recurrence.Proofs.Text.Split
import Recurrence.Weekday.Text

/-!
# Weekdays read back

A list of weekdays is read back from its text (`WeekdaySeries.read_chars`), and reading gives lists
of days from Monday to Sunday whose ranges run upwards (`WeekdaySeries.wellFormed_of_read`).
-/

namespace Recurrence

namespace Weekday

theorem ofName?_abbreviation (day : Weekday) : ofName? day.abbreviation = some day := by
  cases day <;> decide

theorem abbreviationOf_number (day : Weekday) : abbreviationOf day.number = day.abbreviation := by
  cases day <;> rfl

theorem number_bounds (day : Weekday) : 1 ≤ day.number ∧ day.number ≤ 7 := by
  cases day <;> decide

theorem exists_number_eq {n : Nat} (h : 1 ≤ n ∧ n ≤ 7) : ∃ day : Weekday, day.number = n := by
  obtain ⟨hlow, hhigh⟩ := h
  interval_cases n
  exacts [⟨monday, rfl⟩, ⟨tuesday, rfl⟩, ⟨wednesday, rfl⟩, ⟨thursday, rfl⟩, ⟨friday, rfl⟩,
    ⟨saturday, rfl⟩, ⟨sunday, rfl⟩]

theorem isAlpha_of_mem_abbreviation {day : Weekday} {c : Char} (h : c ∈ day.abbreviation) :
    c.isAlpha = true := by
  have hall : day.abbreviation.all Char.isAlpha = true := by cases day <;> decide
  exact List.all_eq_true.mp hall c h

/-- A character that is no letter does not occur in the name of a day. -/
theorem not_mem_abbreviation {c : Char} (hc : c.isAlpha = false) (day : Weekday) :
    c ∉ day.abbreviation := by
  intro h
  rw [isAlpha_of_mem_abbreviation h] at hc
  exact Bool.noConfusion hc

end Weekday

namespace WeekdaySpan

/-- A span that a text can stand for: its days are numbered from 1 to 7, and a range runs
upwards. -/
structure WellFormed (span : WeekdaySpan) : Prop where
  first_mem : 1 ≤ span.first ∧ span.first ≤ 7
  last_le : ∀ last ∈ span.last, last ≤ 7
  first_lt : ∀ last ∈ span.last, span.first < last

theorem wellFormed_of_readSingle {s : List Char} {span : WeekdaySpan}
    (h : readSingle s = .ok span) : span.WellFormed := by
  obtain ⟨day, _, rfl⟩ := map_eq_ok_iff.mp h
  exact ⟨day.number_bounds, by simp [single], by simp [single]⟩

theorem wellFormed_of_readRange {s : List Char} {span : WeekdaySpan}
    (h : readRange s = .ok span) : span.WellFormed := by
  unfold readRange at h
  split at h
  · obtain ⟨first, _, h⟩ := bind_eq_ok_iff.mp h
    obtain ⟨last, _, h⟩ := bind_eq_ok_iff.mp h
    split_ifs at h with hlt
    cases h
    exact ⟨first.number_bounds, fun n hn => Option.some.inj hn ▸ last.number_bounds.2,
      fun n hn => Option.some.inj hn ▸ hlt⟩
  · cases h

theorem wellFormed_of_read {s : List Char} {span : WeekdaySpan} (h : read s = .ok span) :
    span.WellFormed := by
  unfold read at h
  split_ifs at h
  · exact wellFormed_of_readRange h
  · exact wellFormed_of_readSingle h

theorem readDay_abbreviation (day : Weekday) : readDay day.abbreviation = .ok day := by
  rw [readDay, day.ofName?_abbreviation]

/-- A character that is no letter and no dot does not occur in the text of a span. -/
theorem not_mem_chars {c : Char} (halpha : c.isAlpha = false) (hdot : c ≠ '.')
    {span : WeekdaySpan} (h : span.WellFormed) : c ∉ span.chars := by
  obtain ⟨first, hfirst⟩ := Weekday.exists_number_eq h.first_mem
  have hnot := fun day => Weekday.not_mem_abbreviation halpha day
  cases hlast : span.last with
  | none => simp [chars, hlast, ← hfirst, Weekday.abbreviationOf_number, hnot]
  | some n =>
    have hn : 1 ≤ n ∧ n ≤ 7 := by
      have := h.first_lt n hlast
      exact ⟨by omega, h.last_le n hlast⟩
    obtain ⟨last, rfl⟩ := Weekday.exists_number_eq hn
    simp [chars, hlast, ← hfirst, Weekday.abbreviationOf_number, hnot, hdot]

theorem read_chars {span : WeekdaySpan} (h : span.WellFormed) : read span.chars = .ok span := by
  obtain ⟨n, l⟩ := span
  obtain ⟨first, rfl⟩ := Weekday.exists_number_eq h.first_mem
  have hdot := fun day => Weekday.not_mem_abbreviation (c := '.') (by decide) day
  cases l with
  | none =>
    have htext : chars ⟨first.number, none⟩ = first.abbreviation := by
      simp [chars, Weekday.abbreviationOf_number]
    rw [htext, read, Text.hasDots_of_not_mem (hdot first), if_neg Bool.false_ne_true, readSingle,
      readDay_abbreviation]
    rfl
  | some m =>
    have hlt : first.number < m := h.first_lt m rfl
    obtain ⟨last, rfl⟩ := Weekday.exists_number_eq (n := m) ⟨by omega, h.last_le m rfl⟩
    have htext : chars ⟨first.number, some last.number⟩
        = first.abbreviation ++ '.' :: '.' :: last.abbreviation := by
      simp [chars, Weekday.abbreviationOf_number]
    have hcut : Text.splitDots (first.abbreviation ++ '.' :: '.' :: last.abbreviation)
        = [first.abbreviation, last.abbreviation] := by
      rw [Text.splitDots_append (hdot first), Text.splitDots_of_not_mem (hdot last)]
    rw [htext, read, Text.hasDots_append, if_pos rfl, readRange, hcut]
    simp only [readDay_abbreviation, bind, Except.bind, if_pos hlt]
    rfl

end WeekdaySpan

namespace WeekdaySeries

/-- A list of weekdays that a text can stand for. -/
structure WellFormed (series : WeekdaySeries) : Prop where
  ne_nil : series.spans ≠ []
  spans : ∀ span ∈ series.spans, span.WellFormed

theorem wellFormed_all : all.WellFormed := by
  refine ⟨by simp [all], ?_⟩
  intro span hspan
  rw [List.mem_singleton.mp hspan]
  exact ⟨by decide, by simp, by simp⟩

theorem wellFormed_of_read {s : List Char} {series : WeekdaySeries} (h : read s = .ok series) :
    series.WellFormed := by
  obtain ⟨spans, hspans, rfl⟩ := map_eq_ok_iff.mp h
  refine ⟨ne_nil_of_readElements_splitOn hspans, ?_⟩
  intro span hspan
  obtain ⟨piece, _, hread⟩ := exists_read_of_mem hspans hspan
  exact WeekdaySpan.wellFormed_of_read hread

theorem read_chars {series : WeekdaySeries} (h : series.WellFormed) :
    read series.chars = .ok series := by
  have hread : readElements WeekdaySpan.read 0 (series.chars.splitOn ',') = .ok series.spans :=
    readElements_splitOn_intercalate h.ne_nil
      (fun span hspan => WeekdaySpan.not_mem_chars (by decide) (by decide) (h.spans span hspan))
      (fun span hspan => WeekdaySpan.read_chars (h.spans span hspan))
  rw [read, hread]
  rfl

/-- The text of a series stands for this series exactly if any text can. -/
theorem parse_text_eq_ok_iff {series : WeekdaySeries} :
    parse series.text = .ok series ↔ series.WellFormed := by
  rw [parse, text, String.toList_ofList]
  exact ⟨wellFormed_of_read, read_chars⟩

theorem exists_parse_eq_ok_iff {series : WeekdaySeries} :
    (∃ text, parse text = .ok series) ↔ series.WellFormed :=
  ⟨fun ⟨_, h⟩ => wellFormed_of_read h, fun h => ⟨_, parse_text_eq_ok_iff.mpr h⟩⟩

/-- A character that is no letter, no dot and no comma does not occur in the text. -/
theorem not_mem_chars {c : Char} (halpha : c.isAlpha = false) (hdot : c ≠ '.') (hcomma : c ≠ ',')
    {series : WeekdaySeries} (h : series.WellFormed) : c ∉ series.chars := by
  intro hc
  rcases Text.mem_intercalate_singleton hc with rfl | ⟨piece, hpiece, hc⟩
  · exact hcomma rfl
  · obtain ⟨span, hspan, rfl⟩ := List.mem_map.mp hpiece
    exact WeekdaySpan.not_mem_chars halpha hdot (h.spans span hspan) hc

end WeekdaySeries

end Recurrence
