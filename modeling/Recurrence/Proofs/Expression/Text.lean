import Recurrence.Expression.Text
import Recurrence.Proofs.Span.Text
import Recurrence.Proofs.Weekday.Text

/-!
# What an expression can be read as

`Expression.ofWords_eq_ok_iff` says when words are an expression: they are used up by four readers,
one after the other, each of which takes one word or none.  What is read is well formed
(`Expression.wellFormed_of_parse`): every series has spans, they run upwards, and their ends lie in
the field.  This is all that the search relies on.
-/

namespace Recurrence

/-! ### Lists -/

/-- A list of spans or of weekdays is read back from its text exactly if it is well formed, and no other
list is ever read from any text. -/
theorem parse_list_iff_wellFormed :
    (∀ series : Series, (Series.parse series.text = .ok series ↔ series.WellFormed) ∧
      ((∃ text, Series.parse text = .ok series) ↔ series.WellFormed)) ∧
    ∀ series : WeekdaySeries, (WeekdaySeries.parse series.text = .ok series ↔ series.WellFormed) ∧
      ((∃ text, WeekdaySeries.parse text = .ok series) ↔ series.WellFormed) :=
  ⟨fun _ => ⟨Series.parse_text_eq_ok_iff, Series.exists_parse_eq_ok_iff⟩,
    fun _ => ⟨WeekdaySeries.parse_text_eq_ok_iff, WeekdaySeries.exists_parse_eq_ok_iff⟩⟩

/-! ### Fields -/

/-- A series that a text can stand for in a field. -/
structure Series.Fits (field : Field) (series : Series) : Prop where
  wellFormed : series.WellFormed
  within : series.Within field

theorem Field.min_lt_max (field : Field) : field.min < field.max := by
  cases field <;> decide

theorem Field.max_le_maxNumber (field : Field) : field.max ≤ Text.maxNumber := by
  cases field <;> decide

theorem Series.fits_all (field : Field) : (all field).Fits field := by
  have hlt := field.min_lt_max
  have hle := field.max_le_maxNumber
  constructor
  · refine ⟨by simp [all], fun span hspan => ?_⟩
    rw [List.mem_singleton.mp hspan]
    exact ⟨by dsimp only; omega, by simpa using hle, by simpa using hlt, by simp, by simp⟩
  · intro span hspan
    rw [List.mem_singleton.mp hspan]
    exact ⟨Nat.le_refl _, hlt.le, by simpa using hlt.le, by simp⟩

theorem Series.fits_omitted (field : Field) : (omitted field).Fits field := by
  have hlt := field.min_lt_max
  have hle := field.max_le_maxNumber
  unfold omitted
  split_ifs
  · exact fits_all field
  · constructor
    · refine ⟨by simp, fun span hspan => ?_⟩
      rw [List.mem_singleton.mp hspan]
      exact ⟨by dsimp only [Span.single]; omega, by simp [Span.single], by simp [Span.single],
        by simp [Span.single], by simp [Span.single]⟩
    · intro span hspan
      rw [List.mem_singleton.mp hspan]
      exact ⟨Nat.le_refl _, hlt.le, by simp [Span.single], by simp [Span.single]⟩

theorem fits_of_readField {field : Field} {s : List Char} {series : Series}
    (h : readField field s = .ok series) : series.Fits field := by
  unfold readField at h
  split_ifs at h
  · cases h
    exact Series.fits_all field
  · obtain ⟨hread, hwithin⟩ := Series.readFor_eq_ok_iff.mp (mapError_eq_ok_iff.mp h)
    exact ⟨Series.wellFormed_of_read hread, hwithin⟩

/-! ### Dates and times -/

/-- Every field of the date is one that a text can stand for. -/
structure DatePattern.Fits (date : DatePattern) : Prop where
  years : date.years.Fits .years
  months : date.months.Fits .months
  days : date.days.Fits .days

/-- Every field of the time is one that a text can stand for. -/
structure TimePattern.Fits (time : TimePattern) : Prop where
  hours : time.hours.Fits .hours
  minutes : time.minutes.Fits .minutes
  seconds : time.seconds.Fits .seconds

theorem DatePattern.fits_omitted : omitted.Fits :=
  ⟨Series.fits_omitted _, Series.fits_omitted _, Series.fits_omitted _⟩

theorem TimePattern.fits_omitted : omitted.Fits :=
  ⟨Series.fits_omitted _, Series.fits_omitted _, Series.fits_omitted _⟩

theorem DatePattern.readParts_eq_ok_iff {years months days : List Char} {date : DatePattern} :
    readParts years months days = .ok date ↔ readField .years years = .ok date.years ∧
      readField .months months = .ok date.months ∧ readField .days days = .ok date.days := by
  simp only [readParts, bind_eq_ok_iff]
  constructor
  · rintro ⟨y, hy, m, hm, d, hd, h⟩
    cases h
    exact ⟨hy, hm, hd⟩
  · rintro ⟨hy, hm, hd⟩
    exact ⟨_, hy, _, hm, _, hd, rfl⟩

theorem TimePattern.readParts_eq_ok_iff {hours minutes seconds : List Char} {time : TimePattern} :
    readParts hours minutes seconds = .ok time ↔ readField .hours hours = .ok time.hours ∧
      readField .minutes minutes = .ok time.minutes ∧
      readField .seconds seconds = .ok time.seconds := by
  simp only [readParts, bind_eq_ok_iff]
  constructor
  · rintro ⟨h, hh, m, hm, s, hs, heq⟩
    cases heq
    exact ⟨hh, hm, hs⟩
  · rintro ⟨hh, hm, hs⟩
    exact ⟨_, hh, _, hm, _, hs, rfl⟩

theorem DatePattern.fits_of_read {s : List Char} {date : DatePattern} (h : read s = .ok date) :
    date.Fits := by
  have hfits {years months days : List Char} (h : readParts years months days = .ok date) :
      date.Fits := by
    obtain ⟨hy, hm, hd⟩ := readParts_eq_ok_iff.mp h
    exact ⟨fits_of_readField hy, fits_of_readField hm, fits_of_readField hd⟩
  unfold read at h
  split at h
  · exact hfits h
  · exact hfits h
  · cases h

theorem TimePattern.fits_of_read {s : List Char} {time : TimePattern} (h : read s = .ok time) :
    time.Fits := by
  have hfits {hours minutes seconds : List Char}
      (h : readParts hours minutes seconds = .ok time) : time.Fits := by
    obtain ⟨hh, hm, hs⟩ := readParts_eq_ok_iff.mp h
    exact ⟨fits_of_readField hh, fits_of_readField hm, fits_of_readField hs⟩
  unfold read at h
  split at h
  · exact hfits h
  · exact hfits h
  · cases h

/-! ### Words -/

section readWord

variable {α : Type} {wanted : List Char → Bool} {read : List Char → Except ParseError α}
  {omitted part : α} {word : List Char} {words rest : List (List Char)}

theorem readWord_of_wanted (hwanted : wanted word = true) (hread : read word = .ok part) :
    readWord wanted read omitted (word :: rest) = .ok (part, rest) := by
  rw [readWord, if_pos hwanted, hread]
  rfl

theorem readWord_of_not_wanted (hwanted : wanted word = false) :
    readWord wanted read omitted (word :: rest) = .ok (omitted, word :: rest) := by
  rw [readWord, hwanted, if_neg Bool.false_ne_true]

/-- A reader of one word leaves its part out, or takes it from a word. -/
theorem omitted_or_read_of_readWord (h : readWord wanted read omitted words = .ok (part, rest)) :
    part = omitted ∨ ∃ word ∈ words, read word = .ok part := by
  unfold readWord at h
  split at h
  · cases h
    exact .inl rfl
  · split_ifs at h
    · obtain ⟨part', hread, heq⟩ := map_eq_ok_iff.mp h
      cases heq
      exact .inr ⟨_, List.mem_cons_self .., hread⟩
    · cases h
      exact .inl rfl

end readWord

namespace Expression

variable [ZoneDatabase]

/-- Every field is one that a text can stand for. -/
structure WellFormed (e : Expression) : Prop where
  weekdays : e.weekdays.WellFormed
  date : e.date.Fits
  time : e.time.Fits

/-- One to four words are an expression if four readers use them up, each taking one or none. -/
theorem ofWords_eq_ok_iff {words : List (List Char)} {e : Expression} :
    ofWords words = .ok e ↔ words ≠ [] ∧ words.length ≤ maxWords ∧ ∃ words₁ words₂ words₃,
      readWord isWeekdays (fun word => (WeekdaySeries.read word).mapError (.inField .weekdays))
        .all words = .ok (e.weekdays, words₁) ∧
      readWord (·.contains '-') DatePattern.read .omitted words₁ = .ok (e.date, words₂) ∧
      readWord (·.contains ':') TimePattern.read .omitted words₂ = .ok (e.time, words₃) ∧
      readWord (fun _ => true) (fun word => Zone.resolve (String.ofList word)) .machine words₃
        = .ok (e.zone, []) := by
  unfold ofWords
  by_cases hnil : words = []
  · simp only [hnil, if_true, ne_eq, not_true_eq_false, false_and, iff_false]
    rintro ⟨⟩
  by_cases hlen : maxWords < words.length
  · simp only [hnil, hlen, if_true, if_false, Nat.not_le.mpr hlen, false_and, and_false, iff_false]
    rintro ⟨⟩
  simp only [hnil, hlen, if_false, ne_eq, not_false_eq_true, true_and, Nat.not_lt.mp hlen]
  constructor
  · intro h
    obtain ⟨⟨weekdays, words₁⟩, h₁, h⟩ := bind_eq_ok_iff.mp h
    obtain ⟨⟨date, words₂⟩, h₂, h⟩ := bind_eq_ok_iff.mp h
    obtain ⟨⟨time, words₃⟩, h₃, h⟩ := bind_eq_ok_iff.mp h
    obtain ⟨⟨zone, words₄⟩, h₄, h⟩ := bind_eq_ok_iff.mp h
    cases words₄ with
    | nil =>
      cases h
      exact ⟨words₁, words₂, words₃, h₁, h₂, h₃, h₄⟩
    | cons word rest => cases h
  · rintro ⟨words₁, words₂, words₃, h₁, h₂, h₃, h₄⟩
    exact bind_eq_ok_iff.mpr ⟨_, h₁, bind_eq_ok_iff.mpr ⟨_, h₂, bind_eq_ok_iff.mpr ⟨_, h₃,
      bind_eq_ok_iff.mpr ⟨_, h₄, rfl⟩⟩⟩⟩

theorem wellFormed_of_parse {text : String} {e : Expression} (h : parse text = .ok e) :
    e.WellFormed := by
  obtain ⟨_, _, _, _, _, hweekdays, hdate, htime, _⟩ := ofWords_eq_ok_iff.mp h
  refine ⟨?_, ?_, ?_⟩
  · rcases omitted_or_read_of_readWord hweekdays with heq | ⟨word, _, hread⟩
    · rw [heq]
      exact WeekdaySeries.wellFormed_all
    · exact WeekdaySeries.wellFormed_of_read (mapError_eq_ok_iff.mp hread)
  · rcases omitted_or_read_of_readWord hdate with heq | ⟨word, _, hread⟩
    · rw [heq]
      exact DatePattern.fits_omitted
    · exact DatePattern.fits_of_read hread
  · rcases omitted_or_read_of_readWord htime with heq | ⟨word, _, hread⟩
    · rw [heq]
      exact TimePattern.fits_omitted
    · exact TimePattern.fits_of_read hread

end Expression

end Recurrence
