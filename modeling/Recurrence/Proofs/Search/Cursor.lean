import Mathlib.Data.Prod.Lex
import Recurrence.Proofs.Calendar.WallTime
import Recurrence.Search.Cursor

/-!
# The order of the cursors

Cursors are ordered by their units, the coarser one first.  A cursor that is a reading of a clock
stands for it (`Cursor.wall`), and among these the order is that of the line of seconds
(`Cursor.lt_iff_seconds_lt`).  The readings after a given one are those from `Cursor.startingAfter`
on (`Cursor.startingAfter_le_iff`), even though its second may have run over.
-/

namespace Recurrence.Search.Cursor

open Calendar

/-- The units of a cursor, the coarser one first. -/
def units (c : Cursor) : ℕ ×ₗ ℕ ×ₗ ℕ ×ₗ ℕ ×ₗ ℕ ×ₗ ℕ :=
  toLex (c.year, toLex (c.month, toLex (c.day, toLex (c.hour, toLex (c.minute, c.second)))))

theorem units_injective : Function.Injective units := by
  rintro ⟨⟩ ⟨⟩ h
  simpa [units] using h

instance : LinearOrder Cursor :=
  LinearOrder.lift' units units_injective

variable {a b c m : Cursor}

theorem lt_iff : a < b ↔ a.year < b.year ∨ a.year = b.year ∧ (a.month < b.month ∨
    a.month = b.month ∧ (a.day < b.day ∨ a.day = b.day ∧ (a.hour < b.hour ∨
    a.hour = b.hour ∧ (a.minute < b.minute ∨ a.minute = b.minute ∧ a.second < b.second)))) := by
  show a.units < b.units ↔ _
  simp only [units, Prod.Lex.toLex_lt_toLex]

theorem le_iff : a ≤ b ↔ a.year < b.year ∨ a.year = b.year ∧ (a.month < b.month ∨
    a.month = b.month ∧ (a.day < b.day ∨ a.day = b.day ∧ (a.hour < b.hour ∨
    a.hour = b.hour ∧ (a.minute < b.minute ∨ a.minute = b.minute ∧ a.second ≤ b.second)))) := by
  show a.units ≤ b.units ↔ _
  simp only [units, Prod.Lex.toLex_le_toLex]

/-- The next second, which may have run over. -/
theorem bump_le_iff : { c with second := c.second + 1 } ≤ m ↔ c < m := by
  rw [le_iff, lt_iff]
  exact Iff.rfl

/-! ### Coarser units -/

theorem clearBelow_clearBelow (stage : Stage) (c : Cursor) :
    (c.clearBelow stage).clearBelow stage = c.clearBelow stage := by
  cases stage <;> rfl

/-- The order by the units of a stage and of those before it. -/
theorem clearBelow_mono (stage : Stage) (h : a ≤ b) : a.clearBelow stage ≤ b.clearBelow stage := by
  rw [le_iff] at h ⊢
  cases stage <;> dsimp only [clearBelow] <;> omega

theorem lt_of_clearBelow_lt {stage : Stage} (h : a.clearBelow stage < b.clearBelow stage) : a < b := by
  by_contra hle
  exact absurd h (not_lt.mpr (clearBelow_mono stage (not_lt.mp hle)))

/-! ### Readings -/

/-- The reading that a cursor stands for. -/
def wall (c : Cursor) : WallTime :=
  ⟨⟨c.year, c.month, c.day⟩, c.hour, c.minute, c.second⟩

/-- The cursor that stands for a reading. -/
def ofWall (wall : WallTime) : Cursor :=
  ⟨wall.date.year.toNat, wall.date.month, wall.date.day, wall.hour, wall.minute, wall.second⟩

theorem wall_ofWall {wall : WallTime} (h : 0 ≤ wall.date.year) : (ofWall wall).wall = wall := by
  obtain ⟨⟨year, month, day⟩, hour, minute, second⟩ := wall
  simp only [ofWall, Cursor.wall, Int.toNat_of_nonneg h]

theorem wall?_eq_some (h : c.wall.IsValid) : c.wall? = some c.wall :=
  if_pos h

theorem date?_eq_some (h : c.wall.date.IsValid) : c.date? = some c.wall.date :=
  if_pos h

/-- Among readings the order is that of the line of seconds. -/
theorem lt_iff_seconds_lt (ha : a.wall.IsReal) (hb : b.wall.IsReal) :
    a < b ↔ a.wall.seconds < b.wall.seconds := by
  rw [WallTime.seconds_lt_iff ha hb, lt_iff]
  simp only [WallTime.Earlier, Date.Earlier, wall, Date.mk.injEq]
  omega

theorem le_iff_seconds_le (ha : a.wall.IsReal) (hb : b.wall.IsReal) :
    a ≤ b ↔ a.wall.seconds ≤ b.wall.seconds := by
  rw [← not_lt, lt_iff_seconds_lt hb ha, not_lt]

/-- A search after a reading starts at the next second.  A year below zero becomes the year zero,
which is before every reading that a search can find. -/
theorem startingAfter_le_iff {after : WallTime} (hafter : after.IsReal) (hm : m.wall.IsReal)
    (hyear : 0 < m.year) : startingAfter after ≤ m ↔ after.seconds < m.wall.seconds := by
  rw [WallTime.seconds_lt_iff hafter hm, le_iff]
  obtain ⟨⟨year, month, day⟩, hour, minute, second⟩ := after
  simp only [startingAfter, WallTime.Earlier, Date.Earlier, wall, Date.mk.injEq]
  omega

end Recurrence.Search.Cursor
