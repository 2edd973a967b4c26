import Recurrence.Proofs.Span.Text
import Recurrence.Proofs.Text.Grammar

/-!
# Where a series goes wrong

A list is read in two rounds: all of its elements are read, and then they are checked one by one
(`readChecked`).  So its fault is that of the first element that cannot be read, and if there is none,
that of the first one that does not pass the check (`readChecked_eq_error_iff`); either way it is the
fault of this element as a list of its own (`readChecked_of_not_mem`).  A span can be flawed in a few ways
(`Span.flaw_of_read`), and it lies outside a field by its first end, or else by its last one
(`Span.checkBounds_eq_error_iff`).
-/

namespace Recurrence

open Text (Separated)

/-! ### Lists that are read and then checked -/

section readChecked

variable {β : Type} {read : List Char → Except ParseError β} {check : β → Except ParseError Unit}
  {s piece : List Char} {leaf cause : ParseError} {index : Nat} {elements : List β}
  {pieces : List (List Char)}

/-- Reads all elements of a list and then checks them in the same order. -/
def readChecked (read : List Char → Except ParseError β) (check : β → Except ParseError Unit)
    (s : List Char) : Except ParseError (List β) := do
  let elements ← readElements read 0 (s.splitOn ',')
  let _ ← readElements check 0 elements
  return elements

/-- The number of the element that is at fault, and what is wrong with it. -/
inductive ListFault (read : List Char → Except ParseError β) (check : β → Except ParseError Unit)
    (s : List Char) : Nat → ParseError → Prop
  | unread {front rest : List (List Char)} {piece : List Char} {leaf : ParseError}
      (hpieces : Separated ',' (front ++ piece :: rest) s)
      (hfront : ∀ earlier ∈ front, ∃ element, read earlier = .ok element)
      (hpiece : read piece = .error leaf) : ListFault read check s front.length leaf
  | unfit {front rest : List (List Char)} {piece : List Char} {leaf : ParseError}
      (hpieces : Separated ',' (front ++ piece :: rest) s)
      (hall : ∀ other ∈ front ++ piece :: rest, ∃ element, read other = .ok element)
      (hfront : ∀ earlier ∈ front, (read earlier >>= check) = .ok ())
      (hpiece : (read piece >>= check) = .error leaf) : ListFault read check s front.length leaf

/-- To check what was read is to read and check each piece. -/
theorem readElements_bind (h : List.Forall₂ (fun piece element => read piece = .ok element) pieces elements)
    (index : Nat) :
    readElements check index elements = readElements (fun piece => read piece >>= check) index pieces := by
  induction h generalizing index with
  | nil => rfl
  | cons hpiece _ ih =>
    rw [readElements, readElements, hpiece, ih]
    rfl

/-- The second round fails only behind a first one that did not. -/
theorem readChecked_eq_error_iff_rounds : readChecked read check s = .error cause ↔
    readElements read 0 (s.splitOn ',') = .error cause ∨
      (∀ piece ∈ s.splitOn ',', ∃ element, read piece = .ok element) ∧
        readElements (fun piece => read piece >>= check) 0 (s.splitOn ',') = .error cause := by
  rw [readChecked, bind_eq_error_iff, ← exists_readElements_eq_ok_iff, ← exists_and_right]
  refine or_congr_right (exists_congr fun elements => and_congr_right fun helements => ?_)
  rw [bind_eq_error_iff, readElements_bind (readElements_eq_ok_iff.mp helements)]
  simp [pure, Except.pure]

theorem readChecked_eq_error_iff :
    readChecked read check s = .error cause ↔
      ∃ index leaf, ListFault read check s index leaf ∧ cause = .atElement index leaf := by
  simp only [readChecked_eq_error_iff_rounds, readElements_eq_error_iff, Nat.zero_add]
  constructor
  · rintro (⟨front, piece, rest, leaf, hpieces, hfront, hpiece, rfl⟩ |
      ⟨hall, front, piece, rest, leaf, hpieces, hfront, hpiece, rfl⟩)
    · exact ⟨_, _, .unread (Text.splitOn_eq_iff.mp hpieces) hfront hpiece, rfl⟩
    · exact ⟨_, _, .unfit (Text.splitOn_eq_iff.mp hpieces) (hpieces ▸ hall)
        (fun earlier hearlier => (hfront earlier hearlier).elim fun _ h => h) hpiece, rfl⟩
  · rintro ⟨_, _, hfault, rfl⟩
    cases hfault with
    | unread hpieces hfront hpiece =>
      exact .inl ⟨_, _, _, _, Text.splitOn_eq_iff.mpr hpieces, hfront, hpiece, rfl⟩
    | unfit hpieces hall hfront hpiece =>
      have hsplit := Text.splitOn_eq_iff.mpr hpieces
      exact .inr ⟨hsplit ▸ hall, _, _, _, _, hsplit,
        fun earlier hearlier => ⟨(), hfront earlier hearlier⟩, hpiece, rfl⟩

/-- An element is read and checked in the same way as a list of its own. -/
theorem readChecked_of_not_mem (h : ',' ∉ piece) :
    (readChecked read check piece).map (fun _ => ())
      = (read piece >>= check).mapError (.atElement 0) := by
  have hsplit : piece.splitOn ',' = [piece] :=
    Text.splitOn_eq_iff.mpr ⟨List.cons_ne_nil _ _, by simpa using h, List.intercalate_singleton⟩
  rw [readChecked, hsplit]
  cases hread : read piece with
  | error leaf => simp [readElements, hread, bind, Except.bind, Except.map, Except.mapError]
  | ok element =>
    cases hcheck : check element <;>
      simp [readElements, hread, hcheck, bind, Except.bind, pure, Except.pure, Except.map, Except.mapError]

end readChecked

/-! ### Spans -/

namespace Span

variable {s body : List Char} {leaf : ParseError} {field : Field} {span : Span}

/-- What can be wrong with a text that has to be a span. -/
inductive Flaw : ParseError → Prop
  | value (raw : String) : Flaw (.invalidValue raw)
  | range (raw : String) : Flaw (.invalidRange raw)
  | bounds (first last : Nat) : Flaw (.invalidBounds first last)
  | step (raw : String) : Flaw (.invalidRepeat raw)

theorem flaw_of_readValue (h : readValue s = .error leaf) : Flaw leaf := by
  unfold readValue at h
  split at h
  · cases h
  · cases h
    exact .value _

theorem flaw_of_readStep (h : readStep s = .error leaf) : Flaw leaf := by
  unfold readStep at h
  split at h
  · cases h
  · split at h
    · cases h
    · cases h
    · cases h
      exact .step _

theorem flaw_of_readSingle (h : readSingle s = .error leaf) : Flaw leaf := by
  rcases bind_eq_error_iff.mp h with h | ⟨_, _, h⟩
  · exact flaw_of_readStep h
  rcases bind_eq_error_iff.mp h with h | ⟨_, _, h⟩
  · exact flaw_of_readValue h
  · cases h

theorem flaw_of_readRange (h : readRange s = .error leaf) : Flaw leaf := by
  rcases bind_eq_error_iff.mp h with h | ⟨⟨bounds, step⟩, _, h⟩
  · exact flaw_of_readStep h
  dsimp only at h
  split at h
  · rcases bind_eq_error_iff.mp h with h | ⟨first, _, h⟩
    · exact flaw_of_readValue h
    rcases bind_eq_error_iff.mp h with h | ⟨last, _, h⟩
    · exact flaw_of_readValue h
    rcases bind_eq_error_iff.mp h with h | ⟨_, _, h⟩
    · unfold Span.range at h
      split_ifs at h
      cases h
      exact .bounds first last
    · cases h
  · cases h
    exact .range _

theorem flaw_of_read (h : read s = .error leaf) : Flaw leaf := by
  unfold read at h
  split_ifs at h
  · exact flaw_of_readRange h
  · exact flaw_of_readSingle h

/-- The end of the span that is reported if it does not lie in the field: its first end, or the last one
if only this is outside. -/
def FirstOutside (field : Field) (span : Span) (value : Nat) : Prop :=
  value = span.first ∧ ¬(field.min ≤ span.first ∧ span.first ≤ field.max) ∨
    (field.min ≤ span.first ∧ span.first ≤ field.max) ∧ span.last = some value ∧
      ¬(field.min ≤ value ∧ value ≤ field.max)

theorem find?_ends_eq_some_iff {p : Nat → Bool} {value : Nat} :
    (span.first :: span.last.toList).find? p = some value ↔
      value = span.first ∧ p span.first = true ∨
        p span.first = false ∧ span.last = some value ∧ p value = true := by
  cases hfirst : p span.first with
  | true =>
    rw [List.find?_cons_of_pos hfirst]
    simpa using eq_comm
  | false =>
    rw [List.find?_cons_of_neg (by simp [hfirst])]
    cases span.last with
    | none => simp
    | some last =>
      rw [Option.toList_some, List.find?_singleton, Option.ite_none_right_eq_some, Option.some.injEq]
      constructor
      · rintro ⟨hlast, rfl⟩
        exact .inr ⟨rfl, rfl, hlast⟩
      · rintro (⟨_, h⟩ | ⟨_, rfl, hlast⟩)
        · cases h
        · exact ⟨hlast, rfl⟩

theorem checkBounds_eq_error_iff : span.checkBounds field = .error leaf ↔
    ∃ value, span.FirstOutside field value ∧ leaf = .outOfRange value field.min field.max := by
  have hfind (value : Nat) : (span.first :: span.last.toList).find?
      (fun v => v < field.min || field.max < v) = some value ↔ span.FirstOutside field value := by
    rw [find?_ends_eq_some_iff, FirstOutside]
    simp only [Bool.or_eq_true, Bool.or_eq_false_iff, decide_eq_true_eq, decide_eq_false_iff_not,
      not_and_or, Nat.not_le, Nat.not_lt]
  rw [checkBounds]
  constructor
  · intro h
    split at h
    next value hvalue =>
      cases h
      exact ⟨value, (hfind value).mp hvalue, rfl⟩
    next => cases h
  · rintro ⟨value, hvalue, rfl⟩
    simp only [(hfind value).mpr hvalue]

end Span

namespace Series

/-- A series for a field is read and then checked for the bounds of the field. -/
theorem readFor_eq (field : Field) (s : List Char) :
    readFor field s = (readChecked Span.read (Span.checkBounds field) s).map Series.mk := by
  rw [readFor, read, readChecked]
  cases readElements Span.read 0 (s.splitOn ',') with
  | error cause => rfl
  | ok spans => cases hcheck : readElements (Span.checkBounds field) 0 spans <;>
      simp [Except.map, bind, Except.bind, pure, Except.pure, hcheck]

end Series

end Recurrence
