import Recurrence.Proofs.Expression.Text
import Recurrence.Proofs.Weekday.Grammar
import Recurrence.Proofs.Zone.Names

/-!
# The grammar of expressions

What can be read as an expression is laid down without a reader: the words of a text belong to four parts
that may be left out (`Layout`), the characters of the words that are left say which part comes next
(`Layout.Routed`), and each part is spelled by its own grammar or left out (`Layout.Spells`).  A text is
read exactly by this grammar, as what is spelled (`Expression.parse_eq_ok_iff`).
-/

namespace Recurrence

open Text (Separated)

/-! ### Fields -/

/-- A star, or spans whose ends lie in the field. -/
inductive SpelledField (field : Field) : List Char → Series → Prop
  | star : SpelledField field ['*'] (.all field)
  | spans {s : List Char} {series : Series} (hspans : series.Spelled s) (hwithin : series.Within field) :
      SpelledField field s series

theorem readField_eq_ok_iff {field : Field} {s : List Char} {series : Series} :
    readField field s = .ok series ↔ SpelledField field s series := by
  constructor
  · intro h
    unfold readField at h
    split_ifs at h with hstar
    · cases h
      exact hstar ▸ .star
    · obtain ⟨hread, hwithin⟩ := Series.readFor_eq_ok_iff.mp (mapError_eq_ok_iff.mp h)
      exact .spans (Series.read_eq_ok_iff.mp hread) hwithin
  · intro h
    cases h with
    | star => rw [readField, if_pos rfl]
    | spans hspans hwithin =>
      have hread := Series.read_eq_ok_iff.mpr hspans
      have hstar : s ≠ ['*'] := by
        rintro rfl
        have herror : Series.read ['*'] = .error (.atElement 0 (.invalidValue "*")) := rfl
        rw [herror] at hread
        cases hread
      rw [readField, if_neg hstar, mapError_eq_ok_iff]
      exact Series.readFor_eq_ok_iff.mpr ⟨hread, hwithin⟩

/-! ### Dates and times -/

/-- A month and a day with a hyphen between them, and a year in front if not all years are meant. -/
inductive DatePattern.Spelled : List Char → DatePattern → Prop
  | monthDay {s month day : List Char} {months days : Series} (hparts : Separated '-' [month, day] s)
      (hmonth : SpelledField .months month months) (hday : SpelledField .days day days) :
      Spelled s ⟨.all .years, months, days⟩
  | yearMonthDay {s year month day : List Char} {years months days : Series}
      (hparts : Separated '-' [year, month, day] s) (hyear : SpelledField .years year years)
      (hmonth : SpelledField .months month months) (hday : SpelledField .days day days) :
      Spelled s ⟨years, months, days⟩

/-- An hour and a minute with a colon between them, and a second behind if not the first is meant. -/
inductive TimePattern.Spelled : List Char → TimePattern → Prop
  | hourMinute {s hour minute : List Char} {hours minutes : Series}
      (hparts : Separated ':' [hour, minute] s) (hhour : SpelledField .hours hour hours)
      (hminute : SpelledField .minutes minute minutes) :
      Spelled s ⟨hours, minutes, ⟨[.single 0]⟩⟩
  | hourMinuteSecond {s hour minute second : List Char} {hours minutes seconds : Series}
      (hparts : Separated ':' [hour, minute, second] s) (hhour : SpelledField .hours hour hours)
      (hminute : SpelledField .minutes minute minutes)
      (hsecond : SpelledField .seconds second seconds) :
      Spelled s ⟨hours, minutes, seconds⟩

theorem DatePattern.read_eq_ok_iff {s : List Char} {date : DatePattern} :
    read s = .ok date ↔ Spelled s date := by
  have hstar : readField .years ['*'] = .ok (.all .years) := readField_eq_ok_iff.mpr .star
  unfold read
  constructor
  · intro h
    split at h
    next month day hsplit =>
      obtain ⟨hyear, hmonth, hday⟩ := readParts_eq_ok_iff.mp h
      rw [hstar] at hyear
      obtain ⟨years, months, days⟩ := date
      cases hyear
      exact .monthDay (Text.splitOn_eq_iff.mp hsplit) (readField_eq_ok_iff.mp hmonth)
        (readField_eq_ok_iff.mp hday)
    next year month day hsplit =>
      obtain ⟨hyear, hmonth, hday⟩ := readParts_eq_ok_iff.mp h
      exact .yearMonthDay (Text.splitOn_eq_iff.mp hsplit) (readField_eq_ok_iff.mp hyear)
        (readField_eq_ok_iff.mp hmonth) (readField_eq_ok_iff.mp hday)
    next => cases h
  · intro h
    cases h with
    | monthDay hparts hmonth hday =>
      rw [Text.splitOn_eq_iff.mpr hparts]
      exact readParts_eq_ok_iff.mpr
        ⟨hstar, readField_eq_ok_iff.mpr hmonth, readField_eq_ok_iff.mpr hday⟩
    | yearMonthDay hparts hyear hmonth hday =>
      rw [Text.splitOn_eq_iff.mpr hparts]
      exact readParts_eq_ok_iff.mpr ⟨readField_eq_ok_iff.mpr hyear,
        readField_eq_ok_iff.mpr hmonth, readField_eq_ok_iff.mpr hday⟩

theorem TimePattern.read_eq_ok_iff {s : List Char} {time : TimePattern} :
    read s = .ok time ↔ Spelled s time := by
  have hzero : readField .seconds ['0', '0'] = .ok ⟨[.single 0]⟩ := by decide +kernel
  unfold read
  constructor
  · intro h
    split at h
    next hour minute hsplit =>
      obtain ⟨hhour, hminute, hsecond⟩ := readParts_eq_ok_iff.mp h
      rw [hzero] at hsecond
      obtain ⟨hours, minutes, seconds⟩ := time
      cases hsecond
      exact .hourMinute (Text.splitOn_eq_iff.mp hsplit) (readField_eq_ok_iff.mp hhour)
        (readField_eq_ok_iff.mp hminute)
    next hour minute second hsplit =>
      obtain ⟨hhour, hminute, hsecond⟩ := readParts_eq_ok_iff.mp h
      exact .hourMinuteSecond (Text.splitOn_eq_iff.mp hsplit) (readField_eq_ok_iff.mp hhour)
        (readField_eq_ok_iff.mp hminute) (readField_eq_ok_iff.mp hsecond)
    next => cases h
  · intro h
    cases h with
    | hourMinute hparts hhour hminute =>
      rw [Text.splitOn_eq_iff.mpr hparts]
      exact readParts_eq_ok_iff.mpr
        ⟨readField_eq_ok_iff.mpr hhour, readField_eq_ok_iff.mpr hminute, hzero⟩
    | hourMinuteSecond hparts hhour hminute hsecond =>
      rw [Text.splitOn_eq_iff.mpr hparts]
      exact readParts_eq_ok_iff.mpr ⟨readField_eq_ok_iff.mpr hhour,
        readField_eq_ok_iff.mpr hminute, readField_eq_ok_iff.mpr hsecond⟩

/-- The characters of a field come before the colon. -/
theorem SpelledField.lt_colon {field : Field} {s : List Char} {series : Series}
    (h : SpelledField field s series) : ∀ c ∈ s, c < ':' := by
  cases h with
  | star => exact List.forall_mem_singleton.mpr (by decide)
  | spans hspans _ => exact hspans.forall_mem (by decide) fun _ _ => Span.Spelled.lt_colon

/-- The characters of a date come before the colon, so there are no letters among them. -/
theorem DatePattern.Spelled.lt_colon {s : List Char} {date : DatePattern} (h : Spelled s date) :
    ∀ c ∈ s, c < ':' := by
  cases h with
  | monthDay hparts hmonth hday =>
    refine hparts.forall_mem (by decide) ?_
    simpa using ⟨hmonth.lt_colon, hday.lt_colon⟩
  | yearMonthDay hparts hyear hmonth hday =>
    refine hparts.forall_mem (by decide) ?_
    simpa using ⟨hyear.lt_colon, hmonth.lt_colon, hday.lt_colon⟩

/-! ### Zones -/

/-- The word for the zone of the machine, or the name of a zone. -/
inductive Zone.Spelled [ZoneDatabase] : List Char → Zone → Prop
  | machine : Spelled "Local".toList .machine
  | named {name : String} (known : name ∈ ZoneDatabase.names) :
      Spelled name.toList (.named name known)

theorem Zone.resolve_eq_ok_iff [ZoneDatabase] {word : List Char} {zone : Zone} :
    resolve (String.ofList word) = .ok zone ↔ Spelled word zone := by
  constructor
  · intro h
    unfold resolve at h
    split_ifs at h with hlocal known
    · cases h
      rw [← String.toList_ofList (l := word), hlocal]
      exact .machine
    · cases h
      nth_rewrite 1 [← String.toList_ofList (l := word)]
      exact .named known
  · intro h
    cases h with
    | machine => exact Zone.resolve_name .machine
    | named known =>
      rw [String.ofList_toList]
      exact Zone.resolve_name (.named _ known)

/-! ### Words -/

/-- A part that may be left out: spelled by its word, or what it stands for if there is none. -/
inductive SpelledPart {α : Type} (spelled : List Char → α → Prop) (omitted : α) :
    Option (List Char) → α → Prop
  | present {word : List Char} {part : α} (h : spelled word part) :
      SpelledPart spelled omitted (some word) part
  | absent : SpelledPart spelled omitted none omitted

/-- A reader of one word takes the first one exactly if it is of the wanted kind. -/
theorem readWord_eq_ok_iff {α : Type} {wanted : List Char → Bool} {kind : List Char → Prop}
    {read : List Char → Except ParseError α} {spelled : List Char → α → Prop}
    (hkind : ∀ word, wanted word = true ↔ kind word)
    (hread : ∀ word part, read word = .ok part ↔ spelled word part) {omitted part : α}
    {words rest : List (List Char)} :
    readWord wanted read omitted words = .ok (part, rest) ↔ ∃ taken : Option (List Char),
      words = taken.toList ++ rest ∧ (taken.isSome ↔ ∃ word ∈ words.head?, kind word) ∧
        SpelledPart spelled omitted taken part := by
  simp only [← hkind]
  constructor
  · intro h
    unfold readWord at h
    split at h
    · cases h
      exact ⟨none, rfl, by simp, .absent⟩
    next word tail =>
      split_ifs at h with hwanted
      · obtain ⟨found, hfound, heq⟩ := map_eq_ok_iff.mp h
        cases heq
        exact ⟨some word, rfl, by simpa using hwanted, .present ((hread _ _).mp hfound)⟩
      · cases h
        exact ⟨none, rfl, by simpa using hwanted, .absent⟩
  · rintro ⟨taken, rfl, hwanted, hpart⟩
    cases hpart with
    | @present word part hspelled =>
      have hword : wanted word = true := by simpa using hwanted
      exact readWord_of_wanted hword ((hread _ _).mpr hspelled)
    | absent =>
      cases rest with
      | nil => rfl
      | cons word rest =>
        have hword : wanted word = false := by simpa using hwanted
        exact readWord_of_not_wanted hword

/-- The words of an expression, each of which may be missing. -/
structure Layout where
  weekdays : Option (List Char)
  date : Option (List Char)
  time : Option (List Char)
  zone : Option (List Char)

namespace Layout

/-- The words from the time on. -/
def fromTime (layout : Layout) : List (List Char) :=
  layout.time.toList ++ layout.zone.toList

/-- The words from the date on. -/
def fromDate (layout : Layout) : List (List Char) :=
  layout.date.toList ++ layout.fromTime

/-- All words, in this order. -/
def words (layout : Layout) : List (List Char) :=
  layout.weekdays.toList ++ layout.fromDate

/-- Whether a part is there is told by the characters of the first word that is left when it would come:
weekdays have neither a hyphen nor a colon, a date has a hyphen and a time has a colon. -/
structure Routed (layout : Layout) : Prop where
  weekdays : layout.weekdays.isSome ↔ ∃ word ∈ layout.words.head?, '-' ∉ word ∧ ':' ∉ word
  date : layout.date.isSome ↔ ∃ word ∈ layout.fromDate.head?, '-' ∈ word
  time : layout.time.isSome ↔ ∃ word ∈ layout.fromTime.head?, ':' ∈ word

/-- Every word is spelled as the part that it is; without one, all days are meant, on all of them
midnight, and the zone of the machine. -/
structure Spells [ZoneDatabase] (layout : Layout) (e : Expression) : Prop where
  weekdays : SpelledPart WeekdaySeries.Spelled .all layout.weekdays e.weekdays
  date : SpelledPart DatePattern.Spelled ⟨.all .years, .all .months, .all .days⟩ layout.date e.date
  time : SpelledPart TimePattern.Spelled ⟨⟨[.single 0]⟩, ⟨[.single 0]⟩, ⟨[.single 0]⟩⟩ layout.time
    e.time
  zone : SpelledPart Zone.Spelled .machine layout.zone e.zone

end Layout

namespace Expression

theorem isWeekdays_iff (word : List Char) : isWeekdays word = true ↔ '-' ∉ word ∧ ':' ∉ word := by
  simp [isWeekdays]

variable [ZoneDatabase]

/-- The four readers take the words apart as a layout does. -/
theorem ofWords_eq_ok_iff_layout {words : List (List Char)} {e : Expression} :
    ofWords words = .ok e ↔ words ≠ [] ∧ words.length ≤ maxWords ∧
      ∃ layout : Layout, layout.words = words ∧ layout.Routed ∧ layout.Spells e := by
  have hkind (sep : Char) (word : List Char) : word.contains sep = true ↔ sep ∈ word := by simp
  rw [ofWords_eq_ok_iff]
  constructor
  · rintro ⟨hne, hlen, words₁, words₂, words₃, h₁, h₂, h₃, h₄⟩
    obtain ⟨weekdays, rfl, hw, hweekdays⟩ := (readWord_eq_ok_iff isWeekdays_iff fun _ _ =>
      mapError_eq_ok_iff.trans WeekdaySeries.read_eq_ok_iff).mp h₁
    obtain ⟨date, rfl, hd, hdate⟩ := (readWord_eq_ok_iff (hkind '-') fun _ _ =>
      DatePattern.read_eq_ok_iff).mp h₂
    obtain ⟨time, rfl, ht, htime⟩ := (readWord_eq_ok_iff (hkind ':') fun _ _ =>
      TimePattern.read_eq_ok_iff).mp h₃
    obtain ⟨zone, rfl, _, hzone⟩ := (readWord_eq_ok_iff (fun _ => iff_of_eq (eq_self true)) fun _ _ =>
      Zone.resolve_eq_ok_iff).mp h₄
    rw [List.append_nil] at *
    exact ⟨hne, hlen, ⟨weekdays, date, time, zone⟩, rfl, ⟨hw, hd, ht⟩,
      ⟨hweekdays, hdate, htime, hzone⟩⟩
  · rintro ⟨hne, hlen, layout, rfl, hrouted, hspells⟩
    refine ⟨hne, hlen, layout.fromDate, layout.fromTime, layout.zone.toList, ?_, ?_, ?_, ?_⟩
    · exact (readWord_eq_ok_iff isWeekdays_iff fun _ _ =>
        mapError_eq_ok_iff.trans WeekdaySeries.read_eq_ok_iff).mpr
          ⟨layout.weekdays, rfl, hrouted.weekdays, hspells.weekdays⟩
    · exact (readWord_eq_ok_iff (hkind '-') fun _ _ => DatePattern.read_eq_ok_iff).mpr
        ⟨layout.date, rfl, hrouted.date, hspells.date⟩
    · exact (readWord_eq_ok_iff (hkind ':') fun _ _ => TimePattern.read_eq_ok_iff).mpr
        ⟨layout.time, rfl, hrouted.time, hspells.time⟩
    · refine (readWord_eq_ok_iff (fun _ => iff_of_eq (eq_self true)) fun _ _ =>
        Zone.resolve_eq_ok_iff).mpr ⟨layout.zone, (List.append_nil _).symm, ?_, hspells.zone⟩
      cases layout.zone <;> simp

/-- A text is read as an expression exactly if it has one to four words that are spelled as the grammar
has it, and what is read is what they stand for. -/
theorem parse_eq_ok_iff {text : String} {e : Expression} :
    parse text = .ok e ↔ ∃ words, Text.HasWords words text.toList ∧ words ≠ [] ∧
      words.length ≤ maxWords ∧
        ∃ layout : Layout, layout.words = words ∧ layout.Routed ∧ layout.Spells e := by
  rw [parse, read, ofWords_eq_ok_iff_layout]
  simp only [← Text.words_eq_iff, exists_eq_left']

end Expression

end Recurrence
