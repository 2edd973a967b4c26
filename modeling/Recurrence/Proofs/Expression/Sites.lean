import Recurrence.Proofs.Expression.Fault

/-!
# Where an expression goes wrong

The words of a text belong to the parts of an expression (`Layout.Divides`), and what has to be read in
them from left to right are its sites: the text of each field, how many parts a date or a time has, the
name of the zone, and the words that are left over (`Layout.sites`).  A reader fails like the first of its
sites that is not accepted (`Visits.eq_error_iff`).  So if a text is no expression, it has no words or too
many of them, or the cause is that of the first site that is not accepted
(`Expression.read_eq_error_iff`).
-/

namespace Recurrence

/-! ### The order of reading -/

/-- What is read of an expression in one piece: the text of a field, how many parts a date or a time has,
the name of a zone, or a word that is left over. -/
inductive Site where
  | text (field : Field) (s : List Char)
  | parts (chunk : Chunk) (count : Nat)
  | zone (word : List Char)
  | leftover (word : List Char)

namespace Site

variable [ZoneDatabase] {site : Site} {cause : ParseError}

/-- Reads a field, where a star will do if it is not that of the weekdays; a date or a time has three parts
at most, and no word may be left over. -/
def read : Site → Except ParseError Unit
  | .text field s =>
    if field ≠ .weekdays ∧ s = ['*'] then .ok () else (field.readList s).mapError (.inField field)
  | .parts chunk count => if count ≤ 3 then .ok () else .error (.tooManyParts chunk count)
  | .zone word => (Zone.resolve (String.ofList word)).map fun _ => ()
  | .leftover word => .error (.unconsumedChunk (String.ofList word))

/-- There is nothing wrong with it. -/
def Accepted (site : Site) : Prop :=
  site.read = .ok ()

/-- What is wrong with it.  Only the cause in a field has places around it, and they are two: the field and
the number of the element. -/
inductive Fault : Site → ParseError → Prop
  | text {field : Field} {s : List Char} {index : Nat} {leaf : ParseError}
      (hstar : field = .weekdays ∨ s ≠ ['*']) (hfault : field.Fault s index leaf)
      (hleaf : leaf.root = leaf) (hkind : leaf.IsWeekdayCause ↔ field = .weekdays) :
      Fault (.text field s) (.inField field (.atElement index leaf))
  | parts {chunk : Chunk} {count : Nat} (hcount : 3 < count) :
      Fault (.parts chunk count) (.tooManyParts chunk count)
  | zone {word : List Char} (hunknown : ∀ zone, ¬Zone.Spelled word zone) :
      Fault (.zone word) (.unknownZone (String.ofList word))
  | leftover {word : List Char} : Fault (.leftover word) (.unconsumedChunk (String.ofList word))

theorem read_text_eq_error_iff {field : Field} {s : List Char} :
    (Site.text field s).read = .error cause ↔ (field = .weekdays ∨ s ≠ ['*']) ∧
      ∃ index leaf, field.Fault s index leaf ∧ cause = .inField field (.atElement index leaf) := by
  rw [read]
  split_ifs with hstar
  · simp [hstar.1, hstar.2]
  · have hstar : field = .weekdays ∨ s ≠ ['*'] := by
      rwa [not_and_or, not_not] at hstar
    simp only [mapError_eq_error_iff, Field.readList_eq_error_iff, hstar, true_and]
    constructor
    · rintro ⟨_, ⟨index, leaf, hfault, rfl⟩, rfl⟩
      exact ⟨index, leaf, hfault, rfl⟩
    · rintro ⟨index, leaf, hfault, rfl⟩
      exact ⟨_, ⟨index, leaf, hfault, rfl⟩, rfl⟩

theorem read_zone_eq_error_iff {word : List Char} : (Site.zone word).read = .error cause ↔
    (∀ zone, ¬Zone.Spelled word zone) ∧ cause = .unknownZone (String.ofList word) := by
  simp only [read, map_eq_error_iff, ← Zone.resolve_eq_ok_iff]
  unfold Zone.resolve
  split_ifs <;> simp [eq_comm]

theorem read_eq_error_iff : site.read = .error cause ↔ site.Fault cause := by
  constructor
  · intro h
    cases site with
    | text field s =>
      obtain ⟨hstar, index, leaf, hfault, rfl⟩ := read_text_eq_error_iff.mp h
      exact .text hstar hfault hfault.root_eq_and_isWeekdayCause_iff.1
        hfault.root_eq_and_isWeekdayCause_iff.2
    | parts chunk count =>
      rw [read] at h
      split_ifs at h with hcount
      cases h
      exact .parts (Nat.not_le.mp hcount)
    | zone word =>
      obtain ⟨hunknown, rfl⟩ := read_zone_eq_error_iff.mp h
      exact .zone hunknown
    | leftover word =>
      cases h
      exact .leftover
  · intro h
    cases h with
    | text hstar hfault => exact read_text_eq_error_iff.mpr ⟨hstar, _, _, hfault, rfl⟩
    | parts hcount => exact if_neg (Nat.not_le.mpr hcount)
    | zone hunknown => exact read_zone_eq_error_iff.mpr ⟨hunknown, rfl⟩
    | leftover => rfl

end Site

/-- A reading succeeds if all of these sites are accepted, and fails like the first one that is not. -/
def Visits [ZoneDatabase] {α : Type} (x : Except ParseError α) (sites : List Site) : Prop :=
  x.map (fun _ => ()) = (sites.mapM Site.read).map fun _ => ()

namespace Visits

variable [ZoneDatabase] {α β : Type} {x : Except ParseError α} {xs ys : List Site} {a : α}
  {cause : ParseError}

theorem of_eq_ok (h : x = .ok a) : Visits x [] := by
  rw [h]
  rfl

theorem bind {f : α → Except ParseError β} (h : Visits x xs) (hf : ∀ a, Visits (f a) ys) :
    Visits (x >>= f) (xs ++ ys) := by
  unfold Visits at *
  rw [List.mapM_append]
  cases x with
  | error cause =>
    rw [map_eq_error_iff.mp h.symm]
    rfl
  | ok a =>
    obtain ⟨units, hunits, _⟩ := map_eq_ok_iff.mp h.symm
    rw [hunits]
    refine (hf a).trans ?_
    cases ys.mapM Site.read <;> rfl

theorem site {site : Site} (h : x.map (fun _ => ()) = site.read) : Visits x [site] := by
  rw [Visits, h, List.mapM_cons]
  cases site.read <;> rfl

/-- What fails is the first site that is not accepted. -/
theorem eq_error_iff (h : Visits x xs) : x = .error cause ↔ ∃ left site right,
    xs = left ++ site :: right ∧ (∀ earlier ∈ left, earlier.Accepted) ∧ site.Fault cause := by
  have hunit (site : Site) : (∃ result, site.read = .ok result) ↔ site.Accepted :=
    ⟨fun ⟨_, h⟩ => h, fun h => ⟨(), h⟩⟩
  rw [← map_eq_error_iff, h, map_eq_error_iff, mapM_eq_error_iff]
  simp only [Site.read_eq_error_iff, hunit]

end Visits

/-! ### Dates and times -/

/-- What is read of a date: how many parts it has, and then these. -/
def DatePattern.sites (word : List Char) : List Site :=
  let parts := word.splitOn '-'
  .parts .date parts.length :: match parts with
    | [months, days] => [.text .months months, .text .days days]
    | [years, months, days] => [.text .years years, .text .months months, .text .days days]
    | _ => []

/-- What is read of a time: how many parts it has, and then these. -/
def TimePattern.sites (word : List Char) : List Site :=
  let parts := word.splitOn ':'
  .parts .time parts.length :: match parts with
    | [hours, minutes] => [.text .hours hours, .text .minutes minutes]
    | [hours, minutes, seconds] =>
      [.text .hours hours, .text .minutes minutes, .text .seconds seconds]
    | _ => []

section parts

variable [ZoneDatabase] {word : List Char}

theorem visits_readField {field : Field} (h : field ≠ .weekdays) (s : List Char) :
    Visits (readField field s) [.text field s] := by
  refine .site ?_
  rw [readField, Site.read, Field.readList, if_neg h]
  by_cases hstar : s = ['*']
  · rw [if_pos hstar, if_pos ⟨h, hstar⟩]
    rfl
  · rw [if_neg hstar, if_neg fun hand => hstar hand.2]
    cases Series.readFor field s <;> rfl

/-- The year is the first part, and it may be left out. -/
theorem DatePattern.visits_readParts {years : List Char} {first : List Site}
    (hyears : Visits (readField .years years) first) (months days : List Char) :
    Visits (readParts years months days) (first ++ [.text .months months, .text .days days]) :=
  hyears.bind fun _ => .bind (visits_readField (by decide) months) fun _ =>
    .bind (visits_readField (by decide) days) fun _ => .of_eq_ok rfl

/-- The second is the last part, and it may be left out. -/
theorem TimePattern.visits_readParts (hours minutes : List Char) {seconds : List Char}
    {last : List Site} (hseconds : Visits (readField .seconds seconds) last) :
    Visits (readParts hours minutes seconds) ([.text .hours hours, .text .minutes minutes] ++ last) := by
  have h : Visits (readParts hours minutes seconds)
      ([.text .hours hours] ++ ([.text .minutes minutes] ++ (last ++ []))) :=
    .bind (visits_readField (by decide) hours) fun _ =>
      .bind (visits_readField (by decide) minutes) fun _ => hseconds.bind fun _ => .of_eq_ok rfl
  rwa [List.append_nil, ← List.append_assoc] at h

/-- A number of parts that can be read is accepted, so it makes no difference that they are counted. -/
theorem Visits.cons_parts {α : Type} {x : Except ParseError α} {sites : List Site} {chunk : Chunk}
    {count : Nat} (hcount : count ≤ 3) (h : Visits x sites) : Visits x (.parts chunk count :: sites) := by
  rw [Visits, h, List.mapM_cons, Site.read, if_pos hcount]
  cases sites.mapM Site.read <;> rfl

theorem visits_tooManyParts {α : Type} {chunk : Chunk} {count : Nat} (hcount : 3 < count) :
    Visits (.error (.tooManyParts chunk count) : Except ParseError α) [.parts chunk count] :=
  .site (if_neg (Nat.not_le.mpr hcount)).symm

theorem DatePattern.visits_read (h : '-' ∈ word) : Visits (read word) (sites word) := by
  have hstar : readField .years ['*'] = .ok (.all .years) := readField_eq_ok_iff.mpr .star
  have hlen := Text.two_le_length_splitOn h
  rw [read, sites]
  match word.splitOn '-', hlen with
  | [months, days], _ => exact .cons_parts (by simp) (visits_readParts (.of_eq_ok hstar) months days)
  | [years, months, days], _ =>
    exact .cons_parts (by simp) (visits_readParts (visits_readField (by decide) years) months days)
  | _ :: _ :: _ :: _ :: _, _ => exact visits_tooManyParts (by simp)

theorem TimePattern.visits_read (h : ':' ∈ word) : Visits (read word) (sites word) := by
  have hzero : readField .seconds ['0', '0'] = .ok ⟨[.single 0]⟩ := by decide +kernel
  have hlen := Text.two_le_length_splitOn h
  rw [read, sites]
  match word.splitOn ':', hlen with
  | [hours, minutes], _ =>
    exact .cons_parts (by simp) (visits_readParts hours minutes (.of_eq_ok hzero))
  | [hours, minutes, seconds], _ =>
    exact .cons_parts (by simp)
      (visits_readParts hours minutes (visits_readField (by decide) seconds))
  | _ :: _ :: _ :: _ :: _, _ => exact visits_tooManyParts (by simp)

end parts

/-! ### Words -/

section taken

variable [ZoneDatabase] {α β : Type} {wanted : List Char → Bool} {kind : List Char → Prop}
  {read : List Char → Except ParseError α} {omitted : α} {taken : Option (List Char)}
  {tail : List (List Char)} {sites : List Char → List Site} {more : List Site}

/-- A reader of one word reads what there is in the word that it takes, and then what is left is read. -/
theorem Visits.readWord_bind {next : α × List (List Char) → Except ParseError β}
    (hkind : ∀ word, wanted word = true ↔ kind word)
    (hread : ∀ word, kind word → Visits (read word) (sites word))
    (hrouted : taken.isSome ↔ ∃ word ∈ (taken.toList ++ tail).head?, kind word)
    (hnext : ∀ part, Visits (next (part, tail)) more) :
    Visits (readWord wanted read omitted (taken.toList ++ tail) >>= next)
      (taken.toList.flatMap sites ++ more) := by
  cases taken with
  | none =>
    have htaken : readWord wanted read omitted tail = .ok (omitted, tail) := by
      cases tail with
      | nil => rfl
      | cons word tail =>
        have hword : ¬kind word := by simpa using hrouted
        exact readWord_of_not_wanted (eq_false_of_ne_true fun h => hword ((hkind word).mp h))
    rw [Option.toList_none, List.nil_append, htaken]
    exact hnext omitted
  | some word =>
    have hword : kind word := by simpa using hrouted
    have htaken : readWord wanted read omitted (word :: tail) = (read word).map fun part => (part, tail) :=
      if_pos ((hkind word).mpr hword)
    have hsites : (some word).toList.flatMap sites = sites word := List.flatMap_singleton sites word
    rw [hsites, Option.toList_some, List.singleton_append, htaken]
    have hbind : ((read word).map fun part => (part, tail)) >>= next
        = read word >>= fun part => next (part, tail) := by
      cases read word <;> rfl
    rw [hbind]
    exact (hread word hword).bind hnext

end taken

/-- The words are those of a layout, and behind a zone there may be more of them. -/
structure Layout.Divides (layout : Layout) (words rest : List (List Char)) : Prop where
  words_eq : layout.words ++ rest = words
  routed : layout.Routed
  rest_eq_nil : layout.zone = none → rest = []

/-- What is read of the words of a layout and of the words that are left over, from left to right. -/
def Layout.sites (layout : Layout) (rest : List (List Char)) : List Site :=
  layout.weekdays.toList.flatMap (fun word => [.text .weekdays word]) ++
    (layout.date.toList.flatMap DatePattern.sites ++
      (layout.time.toList.flatMap TimePattern.sites ++
        (layout.zone.toList.flatMap (fun word => [.zone word]) ++ rest.map .leftover)))

namespace Layout

variable {layout : Layout} {words rest : List (List Char)}

/-- Words that are left over do not tell which part comes next. -/
theorem routed_iff (hrest : layout.zone = none → rest = []) : layout.Routed ↔
    (layout.weekdays.isSome ↔ ∃ word ∈ (layout.weekdays.toList ++ (layout.fromDate ++ rest)).head?,
      '-' ∉ word ∧ ':' ∉ word) ∧
    (layout.date.isSome ↔ ∃ word ∈ (layout.date.toList ++ (layout.fromTime ++ rest)).head?,
      '-' ∈ word) ∧
    (layout.time.isSome ↔ ∃ word ∈ (layout.time.toList ++ (layout.zone.toList ++ rest)).head?,
      ':' ∈ word) := by
  -- there is a zone in front of them, so none of them comes first
  have hhead (front : List (List Char)) :
      (front ++ (layout.zone.toList ++ rest)).head? = (front ++ layout.zone.toList).head? := by
    cases hzone : layout.zone with
    | none => rw [hrest hzone, List.append_nil]
    | some word => cases front <;> rfl
  have hwords : (layout.weekdays.toList ++ (layout.fromDate ++ rest)).head? = layout.words.head? := by
    simpa only [words, fromDate, fromTime, List.append_assoc] using
      hhead (layout.weekdays.toList ++ (layout.date.toList ++ layout.time.toList))
  have hdate : (layout.date.toList ++ (layout.fromTime ++ rest)).head? = layout.fromDate.head? := by
    simpa only [fromDate, fromTime, List.append_assoc] using
      hhead (layout.date.toList ++ layout.time.toList)
  rw [hwords, hdate, hhead layout.time.toList]
  exact ⟨fun h => ⟨h.weekdays, h.date, h.time⟩, fun ⟨hweekdays, hdate, htime⟩ =>
    ⟨hweekdays, hdate, htime⟩⟩

/-- Any words begin with one of a kind or they do not. -/
theorem exists_taken (kind : List Char → Prop) (words : List (List Char)) :
    ∃ (taken : Option (List Char)) (tail : List (List Char)), words = taken.toList ++ tail ∧
      (taken.isSome ↔ ∃ word ∈ (taken.toList ++ tail).head?, kind word) := by
  cases words with
  | nil => exact ⟨none, [], rfl, by simp⟩
  | cons word words =>
    by_cases hword : kind word
    · exact ⟨some word, words, rfl, by simpa using hword⟩
    · exact ⟨none, word :: words, rfl, by simpa using hword⟩

/-- Whatever the words are, they belong to parts. -/
theorem exists_divides (words : List (List Char)) :
    ∃ (layout : Layout) (rest : List (List Char)), layout.Divides words rest := by
  obtain ⟨weekdays, words₁, rfl, hweekdays⟩ :=
    exists_taken (fun word => '-' ∉ word ∧ ':' ∉ word) words
  obtain ⟨date, words₂, rfl, hdate⟩ := exists_taken (fun word => '-' ∈ word) words₁
  obtain ⟨time, words₃, rfl, htime⟩ := exists_taken (fun word => ':' ∈ word) words₂
  obtain ⟨zone, rest, rfl, hzone⟩ := exists_taken (fun _ => True) words₃
  have hrest : zone = none → rest = [] := by
    rintro rfl
    rw [← List.head?_eq_none_iff, Option.eq_none_iff_forall_ne_some]
    simpa using hzone
  refine ⟨⟨weekdays, date, time, zone⟩, rest, ?_, (routed_iff hrest).mpr ⟨?_, ?_, htime⟩, hrest⟩
  · simp only [Layout.words, fromDate, fromTime, List.append_assoc]
  · simpa only [fromDate, fromTime, List.append_assoc] using hweekdays
  · simpa only [fromTime, List.append_assoc] using hdate

end Layout

namespace Expression

variable [ZoneDatabase] {words rest : List (List Char)} {layout : Layout}

/-- The words that are left over when all parts have been read. -/
theorem visits_leftover (e : Expression) (rest : List (List Char)) :
    Visits (match rest with
      | [] => pure e
      | word :: _ => throw (ParseError.unconsumedChunk (String.ofList word)))
      (rest.map .leftover) := by
  cases rest with
  | nil => exact .of_eq_ok rfl
  | cons word rest =>
    rw [Visits, List.map_cons, List.mapM_cons]
    rfl

theorem visits_ofWords (h : layout.Divides words rest) (hne : words ≠ [])
    (hlen : words.length ≤ maxWords) : Visits (ofWords words) (layout.sites rest) := by
  have hkind (sep : Char) (word : List Char) : word.contains sep = true ↔ sep ∈ word := by simp
  obtain rfl := h.words_eq
  obtain ⟨hweekdays, hdate, htime⟩ := (Layout.routed_iff h.rest_eq_nil).mp h.routed
  have hzone : layout.zone.isSome ↔ ∃ word ∈ (layout.zone.toList ++ rest).head?, True := by
    cases hzone : layout.zone with
    | none => simp [h.rest_eq_nil hzone]
    | some word => simp
  unfold ofWords
  rw [if_neg hne, if_neg (Nat.not_lt.mpr hlen), Layout.words, List.append_assoc]
  refine .readWord_bind isWeekdays_iff (fun word _ => ?_) hweekdays fun weekdays => ?_
  · refine .site ?_
    rw [Site.read, Field.readList, if_pos rfl, if_neg (fun h => h.1 rfl)]
    cases WeekdaySeries.read word <;> rfl
  dsimp only
  rw [Layout.fromDate, List.append_assoc]
  refine .readWord_bind (hkind '-') (fun _ => DatePattern.visits_read) hdate fun date => ?_
  dsimp only
  rw [Layout.fromTime, List.append_assoc]
  refine .readWord_bind (hkind ':') (fun _ => TimePattern.visits_read) htime fun time => ?_
  refine .readWord_bind (fun _ => iff_of_eq (eq_self true)) (fun word _ => .site rfl) hzone fun zone => ?_
  exact visits_leftover ⟨weekdays, date, time, zone⟩ rest

theorem ofWords_of_maxWords_lt (hlen : maxWords < words.length) :
    ofWords words = .error (.tooManyChunks words.length) := by
  have hne : words ≠ [] := List.ne_nil_of_length_pos (Nat.zero_lt_of_lt hlen)
  unfold ofWords
  rw [if_neg hne, if_pos hlen]
  rfl

/-- What is wrong with a text that is no expression: how many words it has, or else the first thing in its
words which is not accepted. -/
inductive Fault (s : List Char) : ParseError → Prop
  | noWords (hwords : Text.HasWords [] s) : Fault s .emptyExpression
  | tooManyWords {words : List (List Char)} (hwords : Text.HasWords words s) (hlen : 4 < words.length) :
      Fault s (.tooManyChunks words.length)
  | atSite {words rest : List (List Char)} {layout : Layout} {left right : List Site} {site : Site}
      {cause : ParseError} (hwords : Text.HasWords words s) (hne : words ≠ [])
      (hlen : words.length ≤ 4) (hdivides : layout.Divides words rest)
      (hsites : layout.sites rest = left ++ site :: right)
      (hleft : ∀ earlier ∈ left, earlier.Accepted) (hsite : site.Fault cause) : Fault s cause

/-- A text is rejected exactly for what is wrong with it. -/
theorem read_eq_error_iff {s : List Char} {cause : ParseError} :
    read s = .error cause ↔ Fault s cause := by
  have hread {words : List (List Char)} (hwords : Text.HasWords words s) : read s = ofWords words := by
    rw [read, Text.words_eq_iff.mpr hwords]
  constructor
  · intro h
    have hwords := Text.hasWords_words s
    rw [hread hwords] at h
    generalize Text.words s = words at h hwords
    by_cases hne : words = []
    · subst hne
      cases h
      exact .noWords hwords
    by_cases hlen : maxWords < words.length
    · rw [ofWords_of_maxWords_lt hlen] at h
      cases h
      exact .tooManyWords hwords hlen
    obtain ⟨layout, rest, hdivides⟩ := Layout.exists_divides words
    obtain ⟨left, site, right, hsites, hleft, hsite⟩ :=
      (visits_ofWords hdivides hne (Nat.not_lt.mp hlen)).eq_error_iff.mp h
    exact .atSite hwords hne (Nat.not_lt.mp hlen) hdivides hsites hleft hsite
  · intro h
    cases h with
    | noWords hwords => exact hread hwords
    | tooManyWords hwords hlen => exact (hread hwords).trans (ofWords_of_maxWords_lt hlen)
    | atSite hwords hne hlen hdivides hsites hleft hsite =>
      rw [hread hwords]
      exact (visits_ofWords hdivides hne hlen).eq_error_iff.mpr ⟨_, _, _, hsites, hleft, hsite⟩

end Expression

end Recurrence
