import Recurrence.Calendar.WallTime
import Recurrence.Proofs.Calendar.Date

/-!
# Readings and the line of seconds

The readings of a clock and the whole seconds of the line they stand on correspond to each other one
to one (`WallTime.seconds_ofSeconds`, `WallTime.ofSeconds_seconds`), and in the same order
(`WallTime.seconds_lt_iff`): first by date, then by hour, minute and second.
-/

namespace Recurrence.Calendar.WallTime

/-- A clock can show the reading, whatever the year. -/
def IsReal (wall : WallTime) : Prop :=
  wall.date.IsReal ∧ wall.hour < 24 ∧ wall.minute < 60 ∧ wall.second < 60

theorem isReal_of_isValid {wall : WallTime} (h : wall.IsValid) : wall.IsReal :=
  ⟨Date.isReal_of_isValid h.1, h.2⟩

theorem isReal_ofSeconds (s : Int) : (ofSeconds s).IsReal := by
  refine ⟨Date.isReal_ofDayNumber _, ?_⟩
  unfold ofSeconds
  dsimp only
  omega

@[simp]
theorem seconds_ofSeconds (s : Int) : (ofSeconds s).seconds = s := by
  unfold seconds ofSeconds
  dsimp only
  rw [Date.dayNumber_ofDayNumber]
  omega

theorem ofSeconds_seconds {wall : WallTime} (h : wall.IsReal) : ofSeconds wall.seconds = wall := by
  obtain ⟨hdate, hhour, hminute, hsecond⟩ := h
  obtain ⟨date, hour, minute, second⟩ := wall
  dsimp only at hdate hhour hminute hsecond
  have hday : seconds ⟨date, hour, minute, second⟩ / 86400 = date.dayNumber := by
    unfold seconds
    dsimp only
    omega
  have hrest : (seconds ⟨date, hour, minute, second⟩ % 86400).toNat
      = hour * 3600 + minute * 60 + second := by
    unfold seconds
    dsimp only
    omega
  unfold ofSeconds
  dsimp only
  rw [hday, hrest, Date.ofDayNumber_dayNumber hdate]
  congr 1 <;> omega

/-- By date, then by hour, minute and second. -/
def Earlier (a b : WallTime) : Prop :=
  a.date.Earlier b.date ∨ a.date = b.date ∧ (a.hour < b.hour ∨ a.hour = b.hour ∧
    (a.minute < b.minute ∨ a.minute = b.minute ∧ a.second < b.second))

theorem seconds_lt_iff {a b : WallTime} (ha : a.IsReal) (hb : b.IsReal) :
    a.seconds < b.seconds ↔ a.Earlier b := by
  obtain ⟨hadate, hahour, haminute, hasecond⟩ := ha
  obtain ⟨hbdate, hbhour, hbminute, hbsecond⟩ := hb
  unfold Earlier
  rw [← Date.dayNumber_lt_iff hadate hbdate]
  have heq : a.date = b.date ↔ a.date.dayNumber = b.date.dayNumber :=
    ⟨congrArg Date.dayNumber, Date.dayNumber_inj hadate hbdate⟩
  rw [heq]
  unfold seconds
  omega

end Recurrence.Calendar.WallTime
