import Recurrence.Proofs.Span.Fault
import Recurrence.Proofs.Weekday.Text

/-!
# Where a list of weekdays goes wrong

A list of weekdays is read like any other list, with nothing to check once its elements are read
(`WeekdaySeries.read_eq`), and the flaws of its elements are of their own kind
(`WeekdaySpan.flaw_of_read`).
-/

namespace Recurrence

namespace WeekdaySpan

variable {s : List Char} {leaf : ParseError}

/-- What can be wrong with a text that has to be a weekday or a range of weekdays. -/
inductive Flaw : ParseError → Prop
  | day (raw : String) : Flaw (.invalidWeekday raw)
  | range (raw : String) : Flaw (.invalidWeekdayRange raw)

theorem flaw_of_readDay (h : readDay s = .error leaf) : Flaw leaf := by
  unfold readDay at h
  split at h
  · cases h
  · cases h
    exact .day _

theorem flaw_of_readRange (h : readRange s = .error leaf) : Flaw leaf := by
  unfold readRange at h
  split at h
  · rcases bind_eq_error_iff.mp h with h | ⟨first, _, h⟩
    · exact flaw_of_readDay h
    rcases bind_eq_error_iff.mp h with h | ⟨last, _, h⟩
    · exact flaw_of_readDay h
    split_ifs at h
    · cases h
    · cases h
      exact .range _
  · cases h
    exact .range _

theorem flaw_of_read (h : read s = .error leaf) : Flaw leaf := by
  unfold read at h
  split_ifs at h
  · exact flaw_of_readRange h
  · exact flaw_of_readDay (map_eq_error_iff.mp h)

end WeekdaySpan

namespace WeekdaySeries

/-- Every weekday will do. -/
theorem read_eq (s : List Char) :
    read s = (readChecked WeekdaySpan.read (fun _ => .ok ()) s).map WeekdaySeries.mk := by
  have hcheck (spans : List WeekdaySpan) :
      ∃ units, readElements (fun _ => .ok ()) 0 spans = .ok units :=
    exists_readElements_eq_ok_iff.mpr fun _ _ => ⟨(), rfl⟩
  rw [read, readChecked]
  cases readElements WeekdaySpan.read 0 (s.splitOn ',') with
  | error cause => rfl
  | ok spans =>
    obtain ⟨units, hunits⟩ := hcheck spans
    simp [Except.map, bind, Except.bind, pure, Except.pure, hunits]

end WeekdaySeries

end Recurrence
