import Recurrence.Proofs.Reading
import Recurrence.Proofs.Text.Numeral
import Recurrence.Proofs.Text.Split

/-!
# Series read back

Reading a span gives a well-formed one (`Span.wellFormed_of_read`), and a well-formed span is read
back from its text (`Span.read_chars`); the same then holds of lists of spans (`Series.read_chars`)
and of lists whose ends have to lie in a field (`Series.readFor_chars`).  Spans are cut apart at
commas, and no span has one in its text.
-/

namespace Recurrence

namespace Span

/-- A span that a text can stand for: a range runs upwards, a step is no zero, and every number has
32 bits. -/
structure WellFormed (span : Span) : Prop where
  first_le : span.first ≤ Text.maxNumber
  last_le : ∀ last ∈ span.last, last ≤ Text.maxNumber
  first_lt : ∀ last ∈ span.last, span.first < last
  step_le : ∀ step ∈ span.step, step ≤ Text.maxNumber
  step_pos : ∀ step ∈ span.step, 0 < step

/-- Both ends of the span are values of the field. -/
structure Within (field : Field) (span : Span) : Prop where
  min_le_first : field.min ≤ span.first
  first_le_max : span.first ≤ field.max
  min_le_last : ∀ last ∈ span.last, field.min ≤ last
  last_le_max : ∀ last ∈ span.last, last ≤ field.max

/-! ### What is read is well formed -/

theorem le_maxNumber_of_readValue {s : List Char} {value : Nat} (h : readValue s = .ok value) :
    value ≤ Text.maxNumber := by
  unfold readValue at h
  split at h
  next hread =>
    rw [← Except.ok.inj h]
    exact Text.le_maxNumber_of_readNumber hread
  next => cases h

theorem step_of_readStep {s body : List Char} {step : Option Nat}
    (h : readStep s = .ok (body, step)) : ∀ n ∈ step, 0 < n ∧ n ≤ Text.maxNumber := by
  unfold readStep at h
  split at h
  · cases h
    simp
  · split at h
    · cases h
      simp
    · rename_i hzero hread
      cases h
      intro n hn
      rw [← Option.some.inj hn]
      exact ⟨Nat.pos_of_ne_zero hzero, Text.le_maxNumber_of_readNumber hread⟩
    · cases h

theorem wellFormed_of_readSingle {s : List Char} {span : Span} (h : readSingle s = .ok span) :
    span.WellFormed := by
  obtain ⟨⟨body, step⟩, hstep, h⟩ := bind_eq_ok_iff.mp h
  obtain ⟨first, hfirst, h⟩ := bind_eq_ok_iff.mp h
  cases h
  exact ⟨le_maxNumber_of_readValue hfirst, by simp, by simp,
    fun n hn => (step_of_readStep hstep n hn).2, fun n hn => (step_of_readStep hstep n hn).1⟩

theorem wellFormed_of_readRange {s : List Char} {span : Span} (h : readRange s = .ok span) :
    span.WellFormed := by
  obtain ⟨⟨body, step⟩, hstep, h⟩ := bind_eq_ok_iff.mp h
  dsimp only at h
  split at h
  · rename_i lower upper _
    obtain ⟨first, hfirst, h⟩ := bind_eq_ok_iff.mp h
    obtain ⟨last, hlast, h⟩ := bind_eq_ok_iff.mp h
    obtain ⟨plain, hplain, h⟩ := bind_eq_ok_iff.mp h
    unfold range at hplain
    split_ifs at hplain with hlt
    cases hplain
    cases h
    exact ⟨le_maxNumber_of_readValue hfirst,
      fun n hn => Option.some.inj hn ▸ le_maxNumber_of_readValue hlast,
      fun n hn => Option.some.inj hn ▸ hlt,
      fun n hn => (step_of_readStep hstep n hn).2,
      fun n hn => (step_of_readStep hstep n hn).1⟩
  · cases h

theorem wellFormed_of_read {s : List Char} {span : Span} (h : read s = .ok span) :
    span.WellFormed := by
  unfold read at h
  split_ifs at h
  · exact wellFormed_of_readRange h
  · exact wellFormed_of_readSingle h

/-! ### What is written is read back -/

theorem readValue_padded {n : Nat} (h : n ≤ Text.maxNumber) :
    readValue (Text.padded 2 n) = .ok n := by
  rw [readValue, Text.readNumber_padded h]

/-- The step is read off the end of the text. -/
theorem readStep_append {body : List Char} (h : '/' ∉ body) (step : Option Nat) :
    (∀ n ∈ step, 0 < n) → (∀ n ∈ step, n ≤ Text.maxNumber) →
      readStep (body ++ match step with | some step => '/' :: Text.digits step | none => [])
        = .ok (body, step) := by
  intro hpos hle
  cases step with
  | none => rw [List.append_nil, readStep, Text.cutAt_of_not_mem h]
  | some step =>
    rw [readStep, Text.cutAt_append h]
    simp only [Text.readNumber_digits (hle step rfl)]
    split
    next hzero => exact absurd (Option.some.inj hzero) (Nat.pos_iff_ne_zero.mp (hpos step rfl))
    next heq => rw [Option.some.inj heq]
    next hnone => cases hnone

theorem readSingle_of_readStep {s body : List Char} {step : Option Nat} {first : Nat}
    (hstep : readStep s = .ok (body, step)) (hfirst : readValue body = .ok first) :
    readSingle s = .ok ⟨first, none, step⟩ := by
  rw [readSingle, hstep]
  simp only [bind, Except.bind, hfirst]
  rfl

theorem readRange_of_readStep {s lower upper : List Char} {step : Option Nat} {first last : Nat}
    (hstep : readStep s = .ok (lower ++ '.' :: '.' :: upper, step)) (hlower : '.' ∉ lower)
    (hupper : '.' ∉ upper) (hfirst : readValue lower = .ok first)
    (hlast : readValue upper = .ok last) (hlt : first < last) :
    readRange s = .ok ⟨first, some last, step⟩ := by
  rw [readRange, hstep]
  simp only [bind, Except.bind, Text.splitDots_append hlower, Text.splitDots_of_not_mem hupper,
    hfirst, hlast, range, if_pos hlt]
  rfl

/-- A character that is no digit and stands for nothing in a span does not occur in its text. -/
theorem not_mem_chars {c : Char} (hdigit : c.isDigit = false) (hdot : c ≠ '.') (hslash : c ≠ '/')
    (span : Span) : c ∉ span.chars := by
  have hfirst := Text.not_mem_padded hdigit 2 span.first
  have hlast := fun n => Text.not_mem_padded hdigit 2 n
  have hstep := fun n => Text.not_mem_digits hdigit n
  cases hl : span.last <;> cases hs : span.step <;> simp [chars, *]

theorem read_chars {span : Span} (h : span.WellFormed) : read span.chars = .ok span := by
  have hfirst := readValue_padded h.first_le
  have hdot (n : Nat) : '.' ∉ Text.padded 2 n := Text.not_mem_padded (by decide) 2 n
  have hslash (n : Nat) : '/' ∉ Text.padded 2 n := Text.not_mem_padded (by decide) 2 n
  cases hlast : span.last with
  | none =>
    -- a single value
    have hstep : readStep span.chars = .ok (Text.padded 2 span.first, span.step) := by
      rw [chars, hlast, List.append_nil]
      exact readStep_append (hslash _) span.step h.step_pos h.step_le
    have hdots : Text.hasDots span.chars = false := by
      have hdigits (n : Nat) : '.' ∉ Text.digits n := Text.not_mem_digits (by decide) n
      apply Text.hasDots_of_not_mem
      cases hs : span.step <;> simp [chars, hlast, hs, hdot, hdigits]
    rw [read, hdots, if_neg Bool.false_ne_true, readSingle_of_readStep hstep hfirst, ← hlast]
  | some last =>
    -- a range
    have hbody : '/' ∉ Text.padded 2 span.first ++ '.' :: '.' :: Text.padded 2 last := by
      simp [hslash]
    have hstep : readStep span.chars
        = .ok (Text.padded 2 span.first ++ '.' :: '.' :: Text.padded 2 last, span.step) := by
      rw [chars, hlast]
      exact readStep_append hbody span.step h.step_pos h.step_le
    have hdots : Text.hasDots span.chars = true := by
      rw [chars, hlast, List.append_assoc]
      exact Text.hasDots_append _ _
    rw [read, hdots, if_pos rfl, readRange_of_readStep hstep (hdot _) (hdot _) hfirst
      (readValue_padded (h.last_le last hlast)) (h.first_lt last hlast), ← hlast]

/-! ### The bounds of a field -/

theorem checkBounds_eq_ok_iff {field : Field} {span : Span} :
    span.checkBounds field = .ok () ↔ span.Within field := by
  have hall : (span.first :: span.last.toList).find? (fun v => v < field.min || field.max < v) = none
      ↔ span.Within field := by
    rw [List.find?_eq_none]
    constructor
    · intro h
      have hfirst := h span.first (List.mem_cons_self ..)
      have hlast : ∀ last ∈ span.last, ¬(last < field.min || field.max < last) = true :=
        fun last hl => h last (List.mem_cons_of_mem _ (Option.mem_toList.mpr hl))
      simp only [Bool.or_eq_true, decide_eq_true_eq, not_or, Nat.not_lt] at hfirst hlast
      exact ⟨hfirst.1, hfirst.2, fun l hl => (hlast l hl).1, fun l hl => (hlast l hl).2⟩
    · intro h v hv
      simp only [Bool.or_eq_true, decide_eq_true_eq, not_or, Nat.not_lt]
      rcases List.mem_cons.mp hv with rfl | hv
      · exact ⟨h.min_le_first, h.first_le_max⟩
      · have hl := Option.mem_toList.mp hv
        exact ⟨h.min_le_last v hl, h.last_le_max v hl⟩
  rw [← hall, checkBounds]
  split
  · rename_i hfind
    simp [hfind]
  · rename_i hfind
    simp [hfind]

end Span

namespace Series

/-- A series that a text can stand for. -/
structure WellFormed (series : Series) : Prop where
  ne_nil : series.spans ≠ []
  spans : ∀ span ∈ series.spans, span.WellFormed

/-- All ends of the spans are values of the field. -/
def Within (field : Field) (series : Series) : Prop :=
  ∀ span ∈ series.spans, span.Within field

theorem wellFormed_of_read {s : List Char} {series : Series} (h : read s = .ok series) :
    series.WellFormed := by
  obtain ⟨spans, hspans, rfl⟩ := map_eq_ok_iff.mp h
  refine ⟨ne_nil_of_readElements_splitOn hspans, ?_⟩
  intro span hspan
  obtain ⟨piece, _, hread⟩ := exists_read_of_mem hspans hspan
  exact Span.wellFormed_of_read hread

theorem read_chars {series : Series} (h : series.WellFormed) : read series.chars = .ok series := by
  have hread : readElements Span.read 0 (series.chars.splitOn ',') = .ok series.spans :=
    readElements_splitOn_intercalate h.ne_nil
      (fun span _ => Span.not_mem_chars (by decide) (by decide) (by decide) span)
      (fun span hspan => Span.read_chars (h.spans span hspan))
  rw [read, hread]
  rfl

/-- The text of a series stands for this series exactly if any text can. -/
theorem parse_text_eq_ok_iff {series : Series} :
    parse series.text = .ok series ↔ series.WellFormed := by
  rw [parse, text, String.toList_ofList]
  exact ⟨wellFormed_of_read, read_chars⟩

theorem exists_parse_eq_ok_iff {series : Series} :
    (∃ text, parse text = .ok series) ↔ series.WellFormed :=
  ⟨fun ⟨_, h⟩ => wellFormed_of_read h, fun h => ⟨_, parse_text_eq_ok_iff.mpr h⟩⟩

/-- The bounds are checked once the whole list is read. -/
theorem readFor_eq_ok_iff {field : Field} {s : List Char} {series : Series} :
    readFor field s = .ok series ↔ read s = .ok series ∧ series.Within field := by
  have hcheck : (∃ units, readElements (Span.checkBounds field) 0 series.spans = .ok units)
      ↔ series.Within field := by
    constructor
    · rintro ⟨units, hunits⟩
      rw [readElements_eq_ok_iff, List.forall₂_iff_get] at hunits
      intro span hspan
      obtain ⟨i, hi, rfl⟩ := List.mem_iff_getElem.mp hspan
      exact Span.checkBounds_eq_ok_iff.mp (hunits.2 i hi (hunits.1 ▸ hi))
    · intro h
      refine ⟨series.spans.map fun _ => (), ?_⟩
      rw [readElements_eq_ok_iff, List.forall₂_map_right_iff, List.forall₂_same]
      exact fun span hspan => Span.checkBounds_eq_ok_iff.mpr (h span hspan)
  rw [← hcheck]
  constructor
  · intro h
    obtain ⟨series', hread, h⟩ := bind_eq_ok_iff.mp h
    obtain ⟨units, hunits, h⟩ := bind_eq_ok_iff.mp h
    cases h
    exact ⟨hread, units, hunits⟩
  · rintro ⟨hread, units, hunits⟩
    exact bind_eq_ok_iff.mpr ⟨series, hread, bind_eq_ok_iff.mpr ⟨units, hunits, rfl⟩⟩

theorem readFor_chars {field : Field} {series : Series} (h : series.WellFormed)
    (hwithin : series.Within field) : readFor field series.chars = .ok series :=
  readFor_eq_ok_iff.mpr ⟨read_chars h, hwithin⟩

theorem not_mem_chars {c : Char} (hdigit : c.isDigit = false) (hdot : c ≠ '.') (hslash : c ≠ '/')
    (hcomma : c ≠ ',') (series : Series) : c ∉ series.chars := by
  intro hc
  rcases Text.mem_intercalate_singleton hc with rfl | ⟨piece, hpiece, hc⟩
  · exact hcomma rfl
  · obtain ⟨span, _, rfl⟩ := List.mem_map.mp hpiece
    exact Span.not_mem_chars hdigit hdot hslash span hc

end Series

end Recurrence
