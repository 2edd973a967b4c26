import Recurrence.Proofs.Span.Text
import Recurrence.Proofs.Text.Grammar

/-!
# The grammar of series

A span is a value or a range of values, with or without a step (`Span.Spelled`), and a series is a list
of spans with commas between them (`Series.Spelled`).  What is read is exactly what is spelled so
(`Span.read_eq_ok_iff`, `Series.read_eq_ok_iff`).
-/

namespace Recurrence

open Text (Numeral Separated)

/-! ### Lists -/

/-- One or more elements with commas between them, each as it is spelled by itself. -/
def SpelledList {β : Type} (spelled : List Char → β → Prop) (s : List Char) (elements : List β) : Prop :=
  ∃ pieces, Separated ',' pieces s ∧ List.Forall₂ spelled pieces elements

theorem readElements_splitOn_eq_ok_iff {β : Type} {read : List Char → Except ParseError β}
    {spelled : List Char → β → Prop} (hread : ∀ piece element, read piece = .ok element ↔
      spelled piece element) (index : Nat) {s : List Char} {elements : List β} :
    readElements read index (s.splitOn ',') = .ok elements ↔ SpelledList spelled s elements := by
  rw [readElements_eq_ok_iff]
  simp only [hread]
  constructor
  · intro h
    exact ⟨_, Text.splitOn_eq_iff.mp rfl, h⟩
  · rintro ⟨pieces, hpieces, h⟩
    rwa [Text.splitOn_eq_iff.mpr hpieces]

theorem SpelledList.forall_mem {β : Type} {spelled : List Char → β → Prop} {p : Char → Prop}
    {s : List Char} {elements : List β} (h : SpelledList spelled s elements) (hcomma : p ',')
    (hspelled : ∀ piece element, spelled piece element → ∀ c ∈ piece, p c) : ∀ c ∈ s, p c := by
  obtain ⟨pieces, hpieces, hall⟩ := h
  refine hpieces.forall_mem hcomma fun piece hpiece => ?_
  obtain ⟨i, hi, rfl⟩ := List.mem_iff_getElem.mp hpiece
  have hlen := hall.length_eq
  exact hspelled _ _ (List.forall₂_iff_get.mp hall |>.2 i hi (hlen ▸ hi))

namespace Span

variable {s body suffix : List Char} {step : Option Nat} {n : Nat} {span : Span} {c : Char}

/-! ### Spans -/

/-- A step behind a slash, if there is one; a step of zero is none. -/
inductive SpelledStep : List Char → Option Nat → Prop
  | none : SpelledStep [] none
  | zero {numeral : List Char} (hnumeral : Numeral numeral 0) : SpelledStep ('/' :: numeral) none
  | some {numeral : List Char} {step : Nat} (hnumeral : Numeral numeral step) (hpos : 0 < step) :
      SpelledStep ('/' :: numeral) (some step)

/-- A value, or the first and the last value of a range with two dots between them, and a step. -/
inductive Spelled : List Char → Span → Prop
  | single {value suffix : List Char} {first : Nat} {step : Option Nat} (hvalue : Numeral value first)
      (hstep : SpelledStep suffix step) : Spelled (value ++ suffix) ⟨first, none, step⟩
  | range {lower upper suffix : List Char} {first last : Nat} {step : Option Nat}
      (hlower : Numeral lower first) (hupper : Numeral upper last) (hlt : first < last)
      (hstep : SpelledStep suffix step) :
      Spelled (lower ++ '.' :: '.' :: upper ++ suffix) ⟨first, some last, step⟩

theorem readValue_eq_ok_iff : readValue s = .ok n ↔ Numeral s n := by
  rw [← Text.readNumber_eq_some_iff, readValue]
  cases Text.readNumber s <;> simp

/-- The characters of a step. -/
theorem SpelledStep.not_mem (h : SpelledStep suffix step) (hslash : c ≠ '/') (hplus : c ≠ '+')
    (hminus : c ≠ '-') (hdigit : c.isDigit = false) : c ∉ suffix := by
  cases h with
  | none => exact List.not_mem_nil
  | zero hnumeral =>
    exact List.not_mem_cons_of_ne_of_not_mem hslash (hnumeral.not_mem hplus hminus hdigit)
  | some hnumeral _ =>
    exact List.not_mem_cons_of_ne_of_not_mem hslash (hnumeral.not_mem hplus hminus hdigit)

theorem readStep_eq_ok_iff : readStep s = .ok (body, step) ↔
    '/' ∉ body ∧ ∃ suffix, s = body ++ suffix ∧ SpelledStep suffix step := by
  constructor
  · intro h
    unfold readStep at h
    split at h
    next hcut =>
      cases h
      exact ⟨Text.cutAt_eq_none_iff.mp hcut, [], (List.append_nil _).symm, .none⟩
    next before after hcut =>
      obtain ⟨hnot, rfl⟩ := Text.cutAt_eq_some_iff.mp hcut
      split at h
      next hread =>
        cases h
        exact ⟨hnot, _, rfl, .zero (Text.readNumber_eq_some_iff.mp hread)⟩
      next hzero hread =>
        cases h
        exact ⟨hnot, _, rfl, .some (Text.readNumber_eq_some_iff.mp hread) (Nat.pos_of_ne_zero hzero)⟩
      next => cases h
  · rintro ⟨hnot, suffix, rfl, hstep⟩
    cases hstep with
    | none => rw [List.append_nil, readStep, Text.cutAt_of_not_mem hnot]
    | zero hnumeral =>
      rw [readStep, Text.cutAt_append hnot]
      simp only [Text.readNumber_eq_some_iff.mpr hnumeral]
    | @some numeral step hnumeral hpos =>
      rw [readStep, Text.cutAt_append hnot]
      simp only [Text.readNumber_eq_some_iff.mpr hnumeral]
      split
      next hzero => exact absurd (Option.some.inj hzero) hpos.ne'
      next heq => rw [Option.some.inj heq]
      next hnone => cases hnone

theorem spelled_of_readSingle (h : readSingle s = .ok span) : Spelled s span := by
  obtain ⟨⟨value, step⟩, hstep, h⟩ := bind_eq_ok_iff.mp h
  obtain ⟨first, hfirst, h⟩ := bind_eq_ok_iff.mp h
  cases h
  obtain ⟨_, suffix, rfl, hsuffix⟩ := readStep_eq_ok_iff.mp hstep
  exact .single (readValue_eq_ok_iff.mp hfirst) hsuffix

theorem spelled_of_readRange (h : readRange s = .ok span) : Spelled s span := by
  obtain ⟨⟨bounds, step⟩, hstep, h⟩ := bind_eq_ok_iff.mp h
  obtain ⟨_, suffix, rfl, hsuffix⟩ := readStep_eq_ok_iff.mp hstep
  dsimp only at h
  split at h
  next lower upper hsplit =>
    obtain ⟨first, hfirst, h⟩ := bind_eq_ok_iff.mp h
    obtain ⟨last, hlast, h⟩ := bind_eq_ok_iff.mp h
    obtain ⟨plain, hplain, h⟩ := bind_eq_ok_iff.mp h
    unfold range at hplain
    split_ifs at hplain with hlt
    cases hplain
    cases h
    rw [Text.eq_of_splitDots_eq_pair hsplit]
    exact .range (readValue_eq_ok_iff.mp hfirst) (readValue_eq_ok_iff.mp hlast) hlt hsuffix
  next => cases h

theorem read_eq_ok_iff : read s = .ok span ↔ Spelled s span := by
  constructor
  · intro h
    unfold read at h
    split_ifs at h
    · exact spelled_of_readRange h
    · exact spelled_of_readSingle h
  · intro h
    cases h with
    | @single value suffix first step hvalue hstep =>
      have hdots : '.' ∉ value ++ suffix := List.not_mem_append
        (hvalue.not_mem (by decide) (by decide) (by decide))
        (hstep.not_mem (by decide) (by decide) (by decide) (by decide))
      have hslash : '/' ∉ value := hvalue.not_mem (by decide) (by decide) (by decide)
      rw [read, Text.hasDots_of_not_mem hdots, if_neg Bool.false_ne_true]
      exact readSingle_of_readStep (readStep_eq_ok_iff.mpr ⟨hslash, suffix, rfl, hstep⟩)
        (readValue_eq_ok_iff.mpr hvalue)
    | @range lower upper suffix first last step hlower hupper hlt hstep =>
      have hdot (s : List Char) {n : Nat} (h : Numeral s n) : '.' ∉ s :=
        h.not_mem (by decide) (by decide) (by decide)
      have hslash : '/' ∉ lower ++ '.' :: '.' :: upper := by
        have hl : '/' ∉ lower := hlower.not_mem (by decide) (by decide) (by decide)
        have hu : '/' ∉ upper := hupper.not_mem (by decide) (by decide) (by decide)
        simp [hl, hu]
      have hdots : Text.hasDots (lower ++ '.' :: '.' :: upper ++ suffix) = true := by
        rw [List.append_assoc]
        exact Text.hasDots_append lower (upper ++ suffix)
      rw [read, hdots, if_pos rfl]
      exact readRange_of_readStep (readStep_eq_ok_iff.mpr ⟨hslash, suffix, rfl, hstep⟩)
        (hdot lower hlower) (hdot upper hupper) (readValue_eq_ok_iff.mpr hlower)
        (readValue_eq_ok_iff.mpr hupper) hlt

/-- The characters of a step come before the colon. -/
theorem SpelledStep.lt_colon (h : SpelledStep suffix step) : ∀ c ∈ suffix, c < ':' := by
  cases h with
  | none => exact fun _ hc => absurd hc List.not_mem_nil
  | zero hnumeral => exact List.forall_mem_cons.mpr ⟨by decide, hnumeral.lt_colon⟩
  | some hnumeral _ => exact List.forall_mem_cons.mpr ⟨by decide, hnumeral.lt_colon⟩

/-- The characters of a span come before the colon. -/
theorem Spelled.lt_colon (h : Spelled s span) : ∀ c ∈ s, c < ':' := by
  cases h with
  | single hvalue hstep => exact List.forall_mem_append.mpr ⟨hvalue.lt_colon, hstep.lt_colon⟩
  | range hlower hupper _ hstep =>
    have hdot : '.' < ':' := by decide
    refine List.forall_mem_append.mpr ⟨List.forall_mem_append.mpr ⟨hlower.lt_colon, ?_⟩, hstep.lt_colon⟩
    exact List.forall_mem_cons.mpr ⟨hdot, List.forall_mem_cons.mpr ⟨hdot, hupper.lt_colon⟩⟩

end Span

namespace Series

/-! ### Lists of spans -/

variable {s : List Char} {series : Series}

/-- One or more spans with commas between them. -/
def Spelled (s : List Char) (series : Series) : Prop :=
  SpelledList Span.Spelled s series.spans

theorem read_eq_ok_iff : read s = .ok series ↔ Spelled s series := by
  rw [read, map_eq_ok_iff, Spelled, ← readElements_splitOn_eq_ok_iff (fun _ _ => Span.read_eq_ok_iff) 0]
  constructor
  · rintro ⟨spans, hread, rfl⟩
    exact hread
  · intro hread
    exact ⟨series.spans, hread, rfl⟩

end Series

end Recurrence
