import Recurrence.Proofs.Expression.Grammar
import Recurrence.Proofs.Zone.Standard

/-!
# Parts put together

Weekdays, a date and a time, each of which is an expression by itself, and a zone may be put together
to one text, and each may be missing as long as one of the first three is there (`Parts.Makes`).  What
is read is the expression that has the parts of the others (`Parts.parse_text_of_makes`), with one
exception: behind weekdays alone, a zone with a hyphen in its name comes where a date would, is taken
for one, and can never be read as one (`Parts.HyphenAtDate`).
-/

namespace Recurrence

namespace Expression

/-! ### Words that are expressions by themselves -/

section taken

variable {kind : List Char → Prop} {taken : Option (List Char)} {word : List Char}
  {rest tail : List (List Char)}

/-- If the first word that is left is of the wanted kind, it is taken. -/
theorem taken_eq_some (hrouted : taken.isSome ↔ ∃ word ∈ (taken.toList ++ tail).head?, kind word)
    (hwords : taken.toList ++ tail = word :: rest) (hkind : kind word) :
    taken = some word ∧ tail = rest := by
  rw [hwords] at hrouted
  obtain ⟨first, rfl⟩ := Option.isSome_iff_exists.mp (hrouted.mpr ⟨word, rfl, hkind⟩)
  obtain ⟨rfl, rfl⟩ := List.cons.inj hwords
  exact ⟨rfl, rfl⟩

/-- If it is not, all words are left. -/
theorem tail_eq (hrouted : taken.isSome ↔ ∃ word ∈ (taken.toList ++ tail).head?, kind word)
    (hwords : taken.toList ++ tail = word :: rest) (hkind : ¬kind word) : tail = word :: rest := by
  rw [hwords] at hrouted
  cases taken with
  | none => exact hwords
  | some first =>
    obtain ⟨found, hfound, hkind'⟩ := hrouted.mp rfl
    obtain rfl : word = found := Option.some.inj hfound
    exact absurd hkind' hkind

theorem isSome_iff_of_kind (htaken : ∀ word ∈ taken, kind word)
    (htail : taken = none → ∀ word ∈ tail.head?, ¬kind word) :
    taken.isSome ↔ ∃ word ∈ (taken.toList ++ tail).head?, kind word := by
  cases taken with
  | none => simpa using htail rfl
  | some first => simpa using htaken first rfl

theorem mem_or_of_mem_head? (h : word ∈ (taken.toList ++ tail).head?) :
    word ∈ taken ∨ taken = none ∧ word ∈ tail.head? := by
  cases taken with
  | none => exact .inr ⟨rfl, h⟩
  | some first => exact .inl h

theorem spelled_of_spelledPart {α : Type} {spelled : List Char → α → Prop} {omitted part : α}
    (h : SpelledPart spelled omitted taken part) (htaken : taken = some word) : spelled word part := by
  rw [htaken] at h
  cases h with
  | present h => exact h

end taken

variable [ZoneDatabase] {word : List Char} {rest : List (List Char)} {own : Expression}

theorem weekdays_spelled_of_ofWords (h : ofWords (word :: rest) = .ok own) (hhyphen : '-' ∉ word)
    (hcolon : ':' ∉ word) : own.weekdays.Spelled word := by
  obtain ⟨_, _, layout, hwords, hrouted, hspells⟩ := ofWords_eq_ok_iff_layout.mp h
  obtain ⟨htaken, _⟩ := taken_eq_some hrouted.weekdays hwords ⟨hhyphen, hcolon⟩
  exact spelled_of_spelledPart hspells.weekdays htaken

theorem date_spelled_of_ofWords (h : ofWords (word :: rest) = .ok own) (hhyphen : '-' ∈ word) :
    own.date.Spelled word := by
  obtain ⟨_, _, layout, hwords, hrouted, hspells⟩ := ofWords_eq_ok_iff_layout.mp h
  have hdate : layout.fromDate = word :: rest :=
    tail_eq hrouted.weekdays hwords fun hnot => hnot.1 hhyphen
  obtain ⟨htaken, _⟩ := taken_eq_some hrouted.date hdate hhyphen
  exact spelled_of_spelledPart hspells.date htaken

/-- A first word with a colon is no date, since no date has a colon. -/
theorem time_spelled_of_ofWords (h : ofWords (word :: rest) = .ok own) (hcolon : ':' ∈ word) :
    '-' ∉ word ∧ own.time.Spelled word := by
  have hhyphen : '-' ∉ word := fun hhyphen =>
    absurd ((date_spelled_of_ofWords h hhyphen).lt_colon ':' hcolon) (by decide)
  obtain ⟨_, _, layout, hwords, hrouted, hspells⟩ := ofWords_eq_ok_iff_layout.mp h
  have hdate : layout.fromDate = word :: rest :=
    tail_eq hrouted.weekdays hwords fun hnot => hnot.2 hcolon
  have htime : layout.fromTime = word :: rest := tail_eq hrouted.date hdate hhyphen
  obtain ⟨htaken, _⟩ := taken_eq_some hrouted.time htime hcolon
  exact ⟨hhyphen, spelled_of_spelledPart hspells.time htaken⟩

/-- Behind weekdays, a word with a hyphen is read as a date. -/
theorem date_spelled_of_ofWords_cons {first : List Char} (h : ofWords (first :: word :: rest) = .ok own)
    (hfirst : '-' ∉ first ∧ ':' ∉ first) (hhyphen : '-' ∈ word) : own.date.Spelled word := by
  obtain ⟨_, _, layout, hwords, hrouted, hspells⟩ := ofWords_eq_ok_iff_layout.mp h
  obtain ⟨_, hdate⟩ := taken_eq_some hrouted.weekdays hwords hfirst
  obtain ⟨htaken, _⟩ := taken_eq_some hrouted.date hdate hhyphen
  exact spelled_of_spelledPart hspells.date htaken

end Expression

/-! ### Zones -/

namespace Zone.Spelled

variable [ZoneDatabase] {word : List Char} {zone : Zone}

theorem isWord (h : Spelled word zone) : Text.words word = [word] := by
  cases h with
  | machine => decide
  | @named name known =>
    exact Text.words_of_not_blank (ZoneDatabase.toList_ne_nil name known)
      (ZoneDatabase.isBlank_eq_false name known)

variable [ZoneDatabase.Lettered]

theorem colon_not_mem (h : Spelled word zone) : ':' ∉ word := by
  cases h with
  | machine => decide
  | @named name known => exact ZoneDatabase.Lettered.colon_not_mem name known

/-- No zone is spelled as a date. -/
theorem not_spelled_date (h : Spelled word zone) (date : DatePattern) : ¬date.Spelled word := by
  have hbehind : ∃ c ∈ word, ':' < c := by
    cases h with
    | machine => exact ⟨'L', by decide, by decide⟩
    | @named name known => exact ZoneDatabase.Lettered.exists_colon_lt name known
  intro hdate
  obtain ⟨c, hc, hlt⟩ := hbehind
  exact Char.lt_asymm hlt (hdate.lt_colon c hc)

end Zone.Spelled

/-! ### Parts -/

/-- The parts of an expression, each of which may be missing. -/
structure Parts where
  weekdays : Option String
  date : Option String
  time : Option String
  zone : Option String

namespace Parts

/-- The parts that are there, in this order. -/
def present (parts : Parts) : List String :=
  parts.weekdays.toList ++ (parts.date.toList ++ (parts.time.toList ++ parts.zone.toList))

/-- The parts that are there, with spaces between them. -/
def text (parts : Parts) : String :=
  " ".intercalate parts.present

/-- A part that is one word and an expression by itself, of which one field is meant; if it is missing,
the field is what it is in any expression that leaves it out. -/
inductive Gives [ZoneDatabase] {α : Type} (kind : List Char → Prop) (field : Expression → α)
    (omitted : α) : Option String → α → Prop
  | present {part : String} {own : Expression} (hword : Text.words part.toList = [part.toList])
      (hparse : Expression.parse part = .ok own) (hkind : kind part.toList) :
      Gives kind field omitted (some part) (field own)
  | absent : Gives kind field omitted none omitted

/-- The expression that has the parts of others. -/
structure Makes [ZoneDatabase] (parts : Parts) (e : Expression) : Prop where
  weekdays : Gives (fun part => '-' ∉ part ∧ ':' ∉ part) Expression.weekdays .all parts.weekdays
    e.weekdays
  date : Gives ('-' ∈ ·) Expression.date .omitted parts.date e.date
  time : Gives (':' ∈ ·) Expression.time .omitted parts.time e.time
  zone : ∀ name ∈ parts.zone, Zone.resolve name = .ok e.zone
  zone_of_none : parts.zone = none → e.zone = .machine

/-- A zone with a hyphen in its name comes where a date would. -/
def HyphenAtDate (parts : Parts) : Prop :=
  parts.date = none ∧ parts.time = none ∧ ∃ name ∈ parts.zone, '-' ∈ name.toList

/-- The words of the parts. -/
def layout (parts : Parts) : Layout :=
  ⟨parts.weekdays.map String.toList, parts.date.map String.toList, parts.time.map String.toList,
    parts.zone.map String.toList⟩

section words

variable {parts : Parts}

theorem map_toList_present (parts : Parts) : parts.present.map String.toList = parts.layout.words := by
  simp [present, Layout.words, Layout.fromDate, Layout.fromTime, layout, Option.toList_map]

theorem words_text (h : ∀ part ∈ parts.present, Text.words part.toList = [part.toList]) :
    Text.words parts.text.toList = parts.layout.words := by
  rw [text, String.toList_intercalate, ← map_toList_present]
  refine Text.words_intercalate _ (fun word hword => ?_) fun word hword c hc => ?_
  all_goals
    obtain ⟨part, hpart, rfl⟩ := List.mem_map.mp hword
    have hmem : part.toList ∈ Text.words part.toList := h part hpart ▸ List.mem_singleton_self _
  · exact Text.ne_nil_of_mem_words hmem
  · exact Text.isBlank_of_mem_words hmem hc

theorem length_words_layout_le (parts : Parts) : parts.layout.words.length ≤ Expression.maxWords := by
  have hlen (part : Option String) : (part.map String.toList).toList.length ≤ 1 := by
    cases part <;> simp
  have hweekdays := hlen parts.weekdays
  have hdate := hlen parts.date
  have htime := hlen parts.time
  have hzone := hlen parts.zone
  simp only [Layout.words, Layout.fromDate, Layout.fromTime, layout, List.length_append,
    Expression.maxWords]
  omega

theorem words_layout_ne_nil
    (hsome : parts.weekdays.isSome ∨ parts.date.isSome ∨ parts.time.isSome) :
    parts.layout.words ≠ [] := by
  intro hnil
  rw [← map_toList_present, List.map_eq_nil_iff] at hnil
  simp only [present, List.append_eq_nil_iff, Option.toList_eq_nil_iff] at hnil
  simp [hnil] at hsome

end words

variable [ZoneDatabase]

section Gives

variable {α : Type} {kind : List Char → Prop} {field : Expression → α} {omitted value : α}
  {source : Option String} {part : String}

theorem Gives.exists_own (h : Gives kind field omitted source value) (hpart : part ∈ source) :
    Text.words part.toList = [part.toList] ∧ kind part.toList ∧
      ∃ own, Expression.ofWords [part.toList] = .ok own ∧ field own = value := by
  cases h with
  | absent => cases hpart
  | @present _ own hword hparse hkind =>
    obtain rfl := Option.some.inj hpart
    rw [Expression.parse, Expression.read, hword] at hparse
    exact ⟨hword, hkind, own, hparse, rfl⟩

theorem Gives.kind_of_mem (h : Gives kind field omitted source value) :
    ∀ word ∈ source.map String.toList, kind word := by
  intro word hword
  obtain ⟨part, hpart, rfl⟩ := Option.map_eq_some_iff.mp hword
  exact (h.exists_own hpart).2.1

theorem Gives.spelledPart {spelled : List Char → α → Prop} (h : Gives kind field omitted source value)
    (hspelled : ∀ word own, Expression.ofWords [word] = .ok own → kind word →
      spelled word (field own)) :
    SpelledPart spelled omitted (source.map String.toList) value := by
  cases source with
  | none =>
    cases h with
    | absent => exact .absent
  | some part =>
    obtain ⟨_, hkind, own, hown, rfl⟩ := h.exists_own rfl
    exact .present (hspelled _ _ hown hkind)

end Gives

variable {parts : Parts} {e : Expression}

theorem Makes.zone_spelled (h : parts.Makes e) {name : String} (hname : name ∈ parts.zone) :
    e.zone.Spelled name.toList := by
  rw [← Zone.resolve_eq_ok_iff, String.ofList_toList]
  exact h.zone name hname

theorem Makes.isWord (h : parts.Makes e) {part : String} (hpart : part ∈ parts.present) :
    Text.words part.toList = [part.toList] := by
  simp only [present, List.mem_append, Option.mem_toList] at hpart
  rcases hpart with hpart | hpart | hpart | hpart
  · exact (h.weekdays.exists_own hpart).1
  · exact (h.date.exists_own hpart).1
  · exact (h.time.exists_own hpart).1
  · exact (h.zone_spelled hpart).isWord

theorem Makes.hyphen_not_mem_time (h : parts.Makes e) : ∀ word ∈ parts.layout.time, '-' ∉ word := by
  intro word hword
  obtain ⟨part, hpart, rfl⟩ := Option.map_eq_some_iff.mp hword
  obtain ⟨_, hcolon, own, hown, _⟩ := h.time.exists_own hpart
  exact (Expression.time_spelled_of_ofWords hown hcolon).1

theorem Makes.spells (h : parts.Makes e) : parts.layout.Spells e := by
  refine ⟨?weekdays, ?date, ?time, ?zone⟩
  case weekdays =>
    exact h.weekdays.spelledPart fun _ _ hown hkind =>
      Expression.weekdays_spelled_of_ofWords hown hkind.1 hkind.2
  case date => exact h.date.spelledPart fun _ _ => Expression.date_spelled_of_ofWords
  case time =>
    exact h.time.spelledPart fun _ _ hown hcolon => (Expression.time_spelled_of_ofWords hown hcolon).2
  case zone =>
    cases hzone : parts.zone with
    | none =>
      rw [layout, hzone, h.zone_of_none hzone]
      exact .absent
    | some name =>
      rw [layout, hzone]
      exact .present (h.zone_spelled hzone)

variable [ZoneDatabase.Lettered]

theorem Makes.colon_not_mem_zone (h : parts.Makes e) : ∀ word ∈ parts.layout.zone, ':' ∉ word := by
  intro word hword
  obtain ⟨name, hname, rfl⟩ := Option.map_eq_some_iff.mp hword
  exact (h.zone_spelled hname).colon_not_mem

/-- Every part is known by its characters, unless a zone comes where a date would and has a hyphen. -/
theorem Makes.routed (h : parts.Makes e)
    (hsome : parts.weekdays.isSome ∨ parts.date.isSome ∨ parts.time.isSome)
    (hzone : ¬parts.HyphenAtDate) : parts.layout.Routed := by
  refine ⟨Expression.isSome_iff_of_kind h.weekdays.kind_of_mem ?weekdays,
    Expression.isSome_iff_of_kind h.date.kind_of_mem ?date,
    Expression.isSome_iff_of_kind h.time.kind_of_mem ?time⟩
  case weekdays =>
    rintro hnone word hword ⟨hhyphen, hcolon⟩
    rcases Expression.mem_or_of_mem_head? hword with hdate | ⟨hdate, hword⟩
    · exact hhyphen (h.date.kind_of_mem word hdate)
    rcases Expression.mem_or_of_mem_head? hword with htime | ⟨htime, _⟩
    · exact hcolon (h.time.kind_of_mem word htime)
    -- one of the first three parts is there
    simp only [layout, Option.map_eq_none_iff] at hnone hdate htime
    simp [hnone, hdate, htime] at hsome
  case date =>
    intro hdate word hword hhyphen
    rcases Expression.mem_or_of_mem_head? hword with htime | ⟨htime, hword⟩
    · exact h.hyphen_not_mem_time word htime hhyphen
    rw [Option.head?_toList] at hword
    obtain ⟨name, hname, rfl⟩ := Option.map_eq_some_iff.mp hword
    exact hzone ⟨Option.map_eq_none_iff.mp hdate, Option.map_eq_none_iff.mp htime, name, hname, hhyphen⟩
  case time =>
    intro _ word hword
    rw [Option.head?_toList] at hword
    exact h.colon_not_mem_zone word hword

/-- What is put together from parts is read as what they make, unless a zone with a hyphen in its name
comes where a date would; then it cannot be read at all. -/
theorem parse_text_of_makes (h : parts.Makes e)
    (hsome : parts.weekdays.isSome ∨ parts.date.isSome ∨ parts.time.isSome) :
    (¬parts.HyphenAtDate → Expression.parse parts.text = .ok e) ∧
      (parts.HyphenAtDate → ∀ e', Expression.parse parts.text ≠ .ok e') := by
  have hwords := words_text fun part => h.isWord
  simp only [Expression.parse, Expression.read, hwords]
  constructor
  · intro hzone
    exact Expression.ofWords_eq_ok_iff_layout.mpr ⟨words_layout_ne_nil hsome,
      parts.length_words_layout_le, parts.layout, rfl, h.routed hsome hzone, h.spells⟩
  · rintro ⟨hdate, htime, name, hname, hhyphen⟩ e' hread
    -- then there are weekdays, and the zone is the word behind them
    obtain ⟨part, hpart⟩ : ∃ part, parts.weekdays = some part := by
      rw [hdate, htime] at hsome
      simpa [Option.isSome_iff_exists] using hsome
    have htwo : parts.layout.words = [part.toList, name.toList] := by
      simp [← map_toList_present, present, hpart, hdate, htime, Option.mem_def.mp hname]
    rw [htwo] at hread
    have hkind := (h.weekdays.exists_own hpart).2.1
    exact (h.zone_spelled hname).not_spelled_date _
      (Expression.date_spelled_of_ofWords_cons hread hkind hhyphen)

end Parts

/-- The same zone is read behind a date, and is not read behind weekdays. -/
theorem Parts.parse_text_of_makes_leapDay : ∃ e,
    (Parts.mk none (some "*-2-29") none (some "Etc/GMT-14")).Makes e ∧
    Expression.parse (Parts.mk none (some "*-2-29") none (some "Etc/GMT-14")).text = .ok e ∧
    ∃ e, (Parts.mk (some "Mon") none none (some "Etc/GMT-14")).Makes e ∧
      ∀ e', Expression.parse (Parts.mk (some "Mon") none none (some "Etc/GMT-14")).text ≠ .ok e' := by
  let zone : Zone := .named "Etc/GMT-14" (by decide +kernel)
  let leapDay : DatePattern := ⟨.all .years, ⟨[.single 2]⟩, ⟨[.single 29]⟩⟩
  let monday : WeekdaySeries := ⟨[⟨1, none⟩]⟩
  have hzone : ∀ name ∈ some "Etc/GMT-14", Zone.resolve name = .ok zone := by decide +kernel
  have hdate : Gives ('-' ∈ ·) Expression.date .omitted (some "*-2-29") leapDay :=
    @Gives.present _ _ _ _ _ "*-2-29" ⟨.all, leapDay, .omitted, .machine⟩ (by decide) (by decide +kernel)
      (by decide)
  have hweekdays : Gives (fun part => '-' ∉ part ∧ ':' ∉ part) Expression.weekdays .all (some "Mon")
      monday :=
    @Gives.present _ _ _ _ _ "Mon" ⟨monday, .omitted, .omitted, .machine⟩ (by decide) (by decide +kernel)
      (by decide)
  have hdated : (Parts.mk none (some "*-2-29") none (some "Etc/GMT-14")).Makes
      ⟨.all, leapDay, .omitted, zone⟩ :=
    ⟨.absent, hdate, .absent, hzone, by decide⟩
  have hbare : (Parts.mk (some "Mon") none none (some "Etc/GMT-14")).Makes
      ⟨monday, .omitted, .omitted, zone⟩ :=
    ⟨hweekdays, .absent, .absent, hzone, by decide⟩
  refine ⟨_, hdated, (parse_text_of_makes hdated (by decide)).1 ?_, _, hbare,
    (parse_text_of_makes hbare (by decide)).2 ?_⟩
  · rintro ⟨hnone, _⟩
    cases hnone
  · exact ⟨rfl, rfl, "Etc/GMT-14", rfl, by decide⟩

/-- A day and a zone, both good, that are rejected together: the zone is read as a month with a bad step,
and a day. -/
theorem Parts.not_parse_text_of_makes : ∃ e,
    (Parts.mk (some "Mon") none none (some "Etc/GMT-14")).Makes e ∧
    (Parts.mk (some "Mon") none none (some "Etc/GMT-14")).text = "Mon Etc/GMT-14" ∧
    Expression.parse "Mon Etc/GMT-14"
      = .error (.inField .months (.atElement 0 (.invalidRepeat "GMT"))) := by
  have hweekdays : Gives (fun part => '-' ∉ part ∧ ':' ∉ part) Expression.weekdays .all (some "Mon")
      ⟨[⟨1, none⟩]⟩ :=
    @Gives.present _ _ _ _ _ "Mon" ⟨⟨[⟨1, none⟩]⟩, .omitted, .omitted, .machine⟩ (by decide)
      (by decide +kernel) (by decide)
  refine ⟨⟨⟨[⟨1, none⟩]⟩, .omitted, .omitted, .named "Etc/GMT-14" (by decide +kernel)⟩,
    ⟨hweekdays, .absent, .absent, by decide +kernel, by decide⟩, by decide +kernel, by decide +kernel⟩

end Recurrence
