import Recurrence.Proofs.Expression.Text
import Recurrence.Proofs.Zone.Names
import Recurrence.Zone.Standard

/-!
# The canonical text of an expression

The canonical text of an expression that was read is read back as the same expression
(`Expression.parse_canonical`): the same series in the same order, and the same zone.  So the
canonical text of what is read back is the text itself, and two expressions with one canonical text
are equal.

The text is cut twice, at blanks and then at `-` or `:`, and each piece is read by the rules of its
place.  No piece holds a character that the text is cut at around it: series consist of digits,
dots, slashes and commas, weekdays of letters, dots and commas, and the name of a zone comes last,
where a hyphen is an ordinary character.
-/

namespace Recurrence

/-! ### The characters of a field -/

/-- The characters that the text of a series is made of, and the star. -/
def isFieldChar (c : Char) : Bool :=
  c.isDigit || c == '.' || c == '/' || c == ',' || c == '*'

theorem isFieldChar_of_mem_fieldChars {field : Field} {series : Series} {c : Char}
    (h : c ∈ fieldChars field series) : isFieldChar c = true := by
  unfold fieldChars at h
  split_ifs at h
  · rw [List.mem_singleton.mp h]
    decide
  · by_contra hc
    simp only [isFieldChar, Bool.or_eq_true, beq_iff_eq, not_or, Bool.not_eq_true] at hc
    exact Series.not_mem_chars hc.1.1.1.1 hc.1.1.1.2 hc.1.1.2 hc.1.2 series h

theorem not_mem_fieldChars {c : Char} (hc : isFieldChar c = false) (field : Field)
    (series : Series) : c ∉ fieldChars field series := by
  intro h
  rw [isFieldChar_of_mem_fieldChars h] at hc
  exact Bool.noConfusion hc

/-- Blanks are no characters of a field. -/
theorem isFieldChar_of_isBlank {c : Char} (h : Text.isBlank c = true) : isFieldChar c = false := by
  simp only [isFieldChar, Bool.or_eq_false_iff, beq_eq_false_iff_ne]
  refine ⟨⟨⟨⟨?_, ?_⟩, ?_⟩, ?_⟩, ?_⟩
  · exact (Text.not_isAlpha_and_not_isDigit_of_isBlank h).2
  all_goals
    rintro rfl
    revert h
    decide

theorem readField_fieldChars {field : Field} {series : Series} (h : series.Fits field) :
    readField field (fieldChars field series) = .ok series := by
  unfold fieldChars
  split_ifs with hall
  · rw [readField, if_pos rfl, hall]
  · have hstar : series.chars ≠ ['*'] := by
      intro hstar
      have hmem : '*' ∈ series.chars := by rw [hstar]; exact List.mem_cons_self ..
      exact Series.not_mem_chars (by decide) (by decide) (by decide) (by decide) series hmem
    rw [readField, if_neg hstar, Series.readFor_chars h.wellFormed h.within]
    rfl

/-! ### Dates and times -/

section threeFields

variable {sep c : Char} (f g h : Field) (s t u : Series)

/-- Three fields joined by a character that none of them holds are cut into the same fields. -/
theorem splitOn_three_fields (hsep : isFieldChar sep = false) :
    ([sep].intercalate [fieldChars f s, fieldChars g t, fieldChars h u]).splitOn sep
      = [fieldChars f s, fieldChars g t, fieldChars h u] := by
  apply List.splitOn_intercalate
  · intro piece hpiece
    simp only [List.mem_cons, List.not_mem_nil, or_false] at hpiece
    rcases hpiece with rfl | rfl | rfl <;> exact not_mem_fieldChars hsep _ _
  · exact List.cons_ne_nil _ _

theorem sep_mem_three_fields :
    sep ∈ [sep].intercalate [fieldChars f s, fieldChars g t, fieldChars h u] := by
  simp [List.intercalate_cons_cons]

theorem isBlank_of_mem_three_fields (hsep : Text.isBlank sep = false)
    (hc : c ∈ [sep].intercalate [fieldChars f s, fieldChars g t, fieldChars h u]) :
    Text.isBlank c = false := by
  by_contra hblank
  have hfield := isFieldChar_of_isBlank (eq_true_of_ne_false hblank)
  rcases Text.mem_intercalate_singleton hc with rfl | ⟨piece, hpiece, hc⟩
  · exact hblank hsep
  · simp only [List.mem_cons, List.not_mem_nil, or_false] at hpiece
    rcases hpiece with rfl | rfl | rfl <;> exact not_mem_fieldChars hfield _ _ hc

end threeFields

theorem DatePattern.read_chars {date : DatePattern} (h : date.Fits) :
    read date.chars = .ok date := by
  rw [read, chars, splitOn_three_fields _ _ _ _ _ _ (by decide)]
  exact readParts_eq_ok_iff.mpr ⟨readField_fieldChars h.years, readField_fieldChars h.months,
    readField_fieldChars h.days⟩

theorem TimePattern.read_chars {time : TimePattern} (h : time.Fits) :
    read time.chars = .ok time := by
  rw [read, chars, splitOn_three_fields _ _ _ _ _ _ (by decide)]
  exact readParts_eq_ok_iff.mpr ⟨readField_fieldChars h.hours, readField_fieldChars h.minutes,
    readField_fieldChars h.seconds⟩

theorem DatePattern.hyphen_mem_chars (date : DatePattern) : '-' ∈ date.chars :=
  sep_mem_three_fields _ _ _ _ _ _

theorem TimePattern.colon_mem_chars (time : TimePattern) : ':' ∈ time.chars :=
  sep_mem_three_fields _ _ _ _ _ _

/-! ### Weekdays -/

theorem WeekdaySeries.isBlank_of_mem_chars {series : WeekdaySeries} (hseries : series.WellFormed)
    {c : Char} (h : c ∈ series.chars) : Text.isBlank c = false := by
  by_contra hblank
  have htrue := eq_true_of_ne_false hblank
  refine not_mem_chars ?_ ?_ ?_ hseries h
  · exact (Text.not_isAlpha_and_not_isDigit_of_isBlank htrue).1
  all_goals
    rintro rfl
    exact hblank (by decide)

theorem WeekdaySeries.chars_ne_nil {series : WeekdaySeries} (h : series.WellFormed) :
    series.chars ≠ [] := by
  intro hnil
  have hread := read_chars h
  rw [hnil] at hread
  revert hread
  simp [read, readElements, WeekdaySpan.read, Text.hasDots, WeekdaySpan.readSingle,
    WeekdaySpan.readDay, show Weekday.ofName? [] = none by decide, Except.map]

theorem WeekdaySeries.isWeekdays_chars {series : WeekdaySeries} (h : series.WellFormed) :
    Expression.isWeekdays series.chars = true := by
  have hhyphen : '-' ∉ series.chars := not_mem_chars (by decide) (by decide) (by decide) h
  have hcolon : ':' ∉ series.chars := not_mem_chars (by decide) (by decide) (by decide) h
  simp [Expression.isWeekdays, hhyphen, hcolon]

/-! ### Expressions -/

namespace Expression

variable [ZoneDatabase] {e : Expression}

/-- The words of the canonical text, one by one. -/
theorem mem_words {word : List Char} (h : word ∈ e.words) :
    word = e.weekdays.chars ∨ word = e.date.chars ∨ word = e.time.chars ∨
      e.zone ≠ .machine ∧ word = e.zone.name.toList := by
  simp only [words, List.mem_append, List.mem_cons, List.not_mem_nil, or_false] at h
  rcases h with (hword | hdate | htime) | hzone
  · split_ifs at hword
    · cases hword
    · exact .inl (List.mem_singleton.mp hword)
  · exact .inr (.inl hdate)
  · exact .inr (.inr (.inl htime))
  · split_ifs at hzone with hmachine
    · cases hzone
    · exact .inr (.inr (.inr ⟨hmachine, List.mem_singleton.mp hzone⟩))

theorem ne_nil_of_mem_words (h : e.WellFormed) {word : List Char} (hword : word ∈ e.words) :
    word ≠ [] := by
  rcases mem_words hword with rfl | rfl | rfl | ⟨_, rfl⟩
  · exact WeekdaySeries.chars_ne_nil h.weekdays
  · exact List.ne_nil_of_mem e.date.hyphen_mem_chars
  · exact List.ne_nil_of_mem e.time.colon_mem_chars
  · exact e.zone.toList_name_ne_nil

theorem isBlank_of_mem_words (h : e.WellFormed) {word : List Char} (hword : word ∈ e.words)
    {c : Char} (hc : c ∈ word) : Text.isBlank c = false := by
  rcases mem_words hword with rfl | rfl | rfl | ⟨_, rfl⟩
  · exact WeekdaySeries.isBlank_of_mem_chars h.weekdays hc
  · exact isBlank_of_mem_three_fields _ _ _ _ _ _ (by decide) hc
  · exact isBlank_of_mem_three_fields _ _ _ _ _ _ (by decide) hc
  · exact Zone.isBlank_of_mem_name hc

theorem length_words_le : e.words.length ≤ maxWords := by
  simp only [words, List.length_append, List.length_cons, List.length_nil, maxWords]
  split_ifs <;> simp

/-- The four readers take the words of the canonical text one by one. -/
theorem ofWords_words (h : e.WellFormed) : ofWords e.words = .ok e := by
  have hdate : e.date.chars.contains '-' = true := by simpa using e.date.hyphen_mem_chars
  have htime : e.time.chars.contains ':' = true := by simpa using e.time.colon_mem_chars
  have hnot : isWeekdays e.date.chars = false := by simp [isWeekdays, e.date.hyphen_mem_chars]
  let zoneWords := if e.zone = .machine then [] else [e.zone.name.toList]
  -- after the weekdays, the words that are left are the others, then all but the date, then the zone
  refine ofWords_eq_ok_iff.mpr ⟨by simp [words], length_words_le, e.date.chars ::
    e.time.chars :: zoneWords, e.time.chars :: zoneWords, zoneWords, ?_,
    readWord_of_wanted hdate (DatePattern.read_chars h.date),
    readWord_of_wanted htime (TimePattern.read_chars h.time), ?_⟩
  · by_cases hall : e.weekdays = .all
    · rw [words, if_pos hall, hall]
      exact readWord_of_not_wanted hnot
    · rw [words, if_neg hall]
      refine readWord_of_wanted (WeekdaySeries.isWeekdays_chars h.weekdays) ?_
      rw [WeekdaySeries.read_chars h.weekdays]
      rfl
  · by_cases hzone : e.zone = .machine
    · simp only [zoneWords, if_pos hzone, hzone, readWord]
    · simp only [zoneWords, if_neg hzone]
      refine readWord_of_wanted rfl ?_
      rw [String.ofList_toList, Zone.resolve_name]

theorem parse_text (h : e.WellFormed) : parse e.text = .ok e := by
  rw [parse, text, String.toList_ofList, read, chars,
    Text.words_intercalate _ (fun _ => ne_nil_of_mem_words h) fun _ hword _ =>
      isBlank_of_mem_words h hword]
  exact ofWords_words h

/-- The canonical text of an expression that was read stands for this expression, and for no other
one that can be read; writing what is read back changes nothing any more. -/
theorem parse_canonical {source : String} (parsed : parse source = .ok e) :
    parse e.text = .ok e ∧ (∀ e', parse e.text = .ok e' → e'.text = e.text) ∧
      ∀ source' e', parse source' = .ok e' → e'.text = e.text → e' = e := by
  have hback := parse_text (wellFormed_of_parse parsed)
  refine ⟨hback, ?_, ?_⟩
  · intro e' hread
    rw [hback] at hread
    rw [Except.ok.inj hread]
  · intro source' e' parsed' htext
    have hback' := parse_text (wellFormed_of_parse parsed')
    rw [htext, hback] at hback'
    exact (Except.ok.inj hback').symm

end Expression

/-- Mixed case, signs, a step of zero and a zone with a hyphen, none of which is kept as it was
written. -/
theorem Expression.parse_canonical_weekend :
    ∃ e, parse "sat..SUN,Monday 2024/4,1999..2010-2-+1,28..30/0 5..7/12,23:-0 Etc/GMT-14" = .ok e ∧
      e.text = "Sat..Sun,Mon 2024/4,1999..2010-02-01,28..30 05..07/12,23:00:00 Etc/GMT-14" ∧
      parse e.text = .ok e := by
  let e : Expression :=
    ⟨⟨[⟨6, some 7⟩, ⟨1, none⟩]⟩,
      ⟨⟨[⟨2024, none, some 4⟩, ⟨1999, some 2010, none⟩]⟩, ⟨[⟨2, none, none⟩]⟩,
        ⟨[⟨1, none, none⟩, ⟨28, some 30, none⟩]⟩⟩,
      ⟨⟨[⟨5, some 7, some 12⟩, ⟨23, none, none⟩]⟩, ⟨[⟨0, none, none⟩]⟩, ⟨[⟨0, none, none⟩]⟩⟩,
      .named "Etc/GMT-14" (by decide +kernel)⟩
  have parsed : parse "sat..SUN,Monday 2024/4,1999..2010-2-+1,28..30/0 5..7/12,23:-0 Etc/GMT-14"
      = .ok e := by
    decide +kernel
  exact ⟨e, parsed, by decide +kernel, (parse_canonical parsed).1⟩

end Recurrence
