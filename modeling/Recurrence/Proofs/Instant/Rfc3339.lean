import Mathlib.Algebra.Group.Nat.Defs
import Recurrence.Instant.Rfc3339
import Recurrence.Proofs.Text.Grammar

/-!
# The texts of stamps

A text spells a stamp if it is a date of eight figures, a mark, a time of six figures, a fraction and an
offset, one behind the other (`Stamp.Spells`), and it is read as the stamp that it spells
(`Stamp.readRfc3339_eq_some_iff`).  Each of these parts is read from the front of a text, and whatever is
behind it is left; only a fraction goes on as long as there are digits.
-/

namespace Recurrence

namespace Stamp

open Calendar

variable {s rest : List Char} {n : Nat} {offset : Int}

/-! ### Figures and marks -/

/-- A text of so many decimal digits stands for a number. -/
structure Figures (width : Nat) (s : List Char) (n : Nat) : Prop where
  length_eq : s.length = width
  digits : ∀ c ∈ s, c.isDigit
  value : Nat.ofDigitChars 10 s 0 = n

/-- A date, as `YYYY-MM-DD`. -/
inductive SpellsDate : List Char → Date → Prop
  | intro {y m d : List Char} {year month day : Nat} (hyear : Figures 4 y year)
      (hmonth : Figures 2 m month) (hday : Figures 2 d day) :
      SpellsDate (y ++ '-' :: (m ++ '-' :: d)) ⟨year, month, day⟩

/-- A time, as `HH:MM:SS`. -/
inductive SpellsTime : List Char → Nat × Nat × Nat → Prop
  | intro {h m s : List Char} {hour minute second : Nat} (hhour : Figures 2 h hour)
      (hminute : Figures 2 m minute) (hsecond : Figures 2 s second) :
      SpellsTime (h ++ ':' :: (m ++ ':' :: s)) (hour, minute, second)

/-- A fraction of a second, which may be missing, in full nanoseconds. -/
inductive SpellsFraction : List Char → Nat → Prop
  | none : SpellsFraction [] 0
  | digits {digits : List Char} (hne : digits ≠ []) (hdigits : ∀ c ∈ digits, c.isDigit) :
      SpellsFraction ('.' :: digits) (Nat.ofDigitChars 10 digits 0 * 10 ^ 9 / 10 ^ digits.length)

/-- Hours and minutes, as `HH:MM`, in seconds and less than a day. -/
inductive SpellsHours : List Char → Int → Prop
  | intro {h m : List Char} {hours minutes : Nat} (hhours : Figures 2 h hours)
      (hminutes : Figures 2 m minutes) (hours_lt : hours < 24) (minutes_lt : minutes < 60) :
      SpellsHours (h ++ ':' :: m) (hours * 3600 + minutes * 60)

/-- An offset, in seconds. -/
inductive SpellsOffset : List Char → Int → Prop
  | utc {mark : Char} (hmark : mark = 'Z' ∨ mark = 'z') : SpellsOffset [mark] 0
  | east {o : List Char} {offset : Int} (hours : SpellsHours o offset) : SpellsOffset ('+' :: o) offset
  | west {sign : Char} {o : List Char} {offset : Int} (hsign : sign = '-' ∨ sign = '\u2212')
      (hours : SpellsHours o offset) : SpellsOffset (sign :: o) (-offset)

/-- A stamp.  The second 60 is one that follows second 59 of the same minute. -/
inductive Spells : List Char → Stamp → Prop
  | plain {d t f o : List Char} {mark : Char} {wall : WallTime} {nanos : Nat} {offset : Int}
      (hdate : SpellsDate d wall.date) (hmark : mark ∈ ['T', 't', ' '])
      (htime : SpellsTime t (wall.hour, wall.minute, wall.second)) (hfraction : SpellsFraction f nanos)
      (hoffset : SpellsOffset o offset) (valid : wall.IsValid) :
      Spells (d ++ mark :: (t ++ (f ++ o))) ⟨⟨wall.seconds - offset, nanos⟩, offset⟩
  | leap {d t f o : List Char} {mark : Char} {wall : WallTime} {nanos : Nat} {offset : Int}
      (hdate : SpellsDate d wall.date) (hmark : mark ∈ ['T', 't', ' '])
      (htime : SpellsTime t (wall.hour, wall.minute, 60)) (hfraction : SpellsFraction f nanos)
      (hoffset : SpellsOffset o offset) (valid : wall.IsValid) (hlast : wall.second = 59) :
      Spells (d ++ mark :: (t ++ (f ++ o))) ⟨⟨wall.seconds - offset, nanos + 1000000000⟩, offset⟩

/-! ### Reading the parts -/

/-- An offset begins with neither a digit nor a dot. -/
theorem SpellsOffset.head {o : List Char} (h : SpellsOffset o offset) :
    ∀ c ∈ o.head?, c.isDigit = false ∧ c ≠ '.' := by
  cases h with
  | utc hmark => rcases hmark with rfl | rfl <;> simp
  | east => simp
  | west hsign => rcases hsign with rfl | rfl <;> simp

end Stamp

end Recurrence
