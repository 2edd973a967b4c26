import Recurrence.Proofs.Expression.Grammar
import Recurrence.Proofs.Weekday.Fault

/-!
# Where a field goes wrong

A list for a field is at fault by one of its elements, as if this were all that was written
(`Field.readList_eq_error_iff`).  An element that cannot be read comes before one that is out of range,
wherever the two stand.  Weekdays and numbers are read by different readers, but what is said here needs
only what these have in common (`Field.Reader`).
-/

namespace Recurrence

open Text (Separated)

/-- The cause is that something is no day of the week, or no range of them. -/
def ParseError.IsWeekdayCause : ParseError → Prop
  | .invalidWeekday _ => True
  | .invalidWeekdayRange _ => True
  | _ => False

namespace Field

variable {field : Field} {s piece : List Char} {index : Nat} {leaf cause : ParseError}

/-- Reads an element of a list for a field, whatever the bounds of the field. -/
def readElement (field : Field) (piece : List Char) : Except ParseError Unit :=
  if field = .weekdays then (WeekdaySpan.read piece).map fun _ => ()
  else (Span.read piece).map fun _ => ()

/-- Reads a list for a field. -/
def readList (field : Field) (s : List Char) : Except ParseError Unit :=
  if field = .weekdays then (WeekdaySeries.read s).map fun _ => ()
  else (Series.readFor field s).map fun _ => ()

/-- The number of the element at which a list for a field goes wrong, and the cause, which is the one that
the element has by itself.  An element that cannot be read comes before all that is out of range. -/
inductive Fault (field : Field) (s : List Char) : Nat → ParseError → Prop
  | unread {front rest : List (List Char)} {piece : List Char} {leaf : ParseError}
      (hpieces : Separated ',' (front ++ piece :: rest) s)
      (hfront : ∀ earlier ∈ front, field.readElement earlier = .ok ())
      (hpiece : field.readList piece = .error (.atElement 0 leaf))
      (hleaf : ∀ value min max, leaf ≠ .outOfRange value min max) : Fault field s front.length leaf
  | outOfRange {front rest : List (List Char)} {piece : List Char} {span : Span} {value : Nat}
      (hpieces : Separated ',' (front ++ piece :: rest) s)
      (hall : ∀ other ∈ front ++ piece :: rest, field.readElement other = .ok ())
      (hfront : ∀ earlier ∈ front, field.readList earlier = .ok ())
      (hpiece : field.readList piece = .error (.atElement 0 (.outOfRange value field.min field.max)))
      (hspan : Span.read piece = .ok span) (hvalue : span.FirstOutside field value) :
      Fault field s front.length (.outOfRange value field.min field.max)

/-- The elements of a list for a field are read by `read`, and then checked by `check`. -/
structure Reader {β : Type} (field : Field) (read : List Char → Except ParseError β)
    (check : β → Except ParseError Unit) : Prop where
  readElement_eq : ∀ piece, field.readElement piece = (read piece).map fun _ => ()
  readList_eq : ∀ s, field.readList s = (readChecked read check s).map fun _ => ()
  ne_outOfRange : ∀ piece leaf, read piece = .error leaf →
    ∀ value min max, leaf ≠ .outOfRange value min max
  eq_outOfRange : ∀ piece element leaf, read piece = .ok element → check element = .error leaf →
    ∃ span value, Span.read piece = .ok span ∧ span.FirstOutside field value ∧
      leaf = .outOfRange value field.min field.max

theorem reader_weekdays : Reader .weekdays WeekdaySpan.read fun _ => .ok () where
  readElement_eq _ := rfl
  readList_eq s := by
    rw [readList, if_pos rfl, WeekdaySeries.read_eq]
    cases readChecked WeekdaySpan.read (fun _ => .ok ()) s <;> rfl
  ne_outOfRange _ _ h := by
    cases WeekdaySpan.flaw_of_read h <;> simp
  eq_outOfRange _ _ _ _ h := by cases h

theorem reader_of_ne (h : field ≠ .weekdays) : Reader field Span.read (Span.checkBounds field) where
  readElement_eq _ := if_neg h
  readList_eq s := by
    rw [readList, if_neg h, Series.readFor_eq]
    cases readChecked Span.read (Span.checkBounds field) s <;> rfl
  ne_outOfRange _ _ h := by
    cases Span.flaw_of_read h <;> simp
  eq_outOfRange piece span leaf hspan hcheck := by
    obtain ⟨value, hvalue, rfl⟩ := Span.checkBounds_eq_error_iff.mp hcheck
    exact ⟨span, value, hspan, hvalue, rfl⟩

section Reader

variable {β : Type} {read : List Char → Except ParseError β} {check : β → Except ParseError Unit}

/-- An element by itself is read and checked. -/
theorem Reader.readList_of_not_mem (h : field.Reader read check) (hpiece : ',' ∉ piece) :
    field.readList piece = (read piece >>= check).mapError (.atElement 0) :=
  (h.readList_eq piece).trans (readChecked_of_not_mem hpiece)

theorem Reader.readList_piece_eq_error_iff (h : field.Reader read check) (hpiece : ',' ∉ piece) :
    field.readList piece = .error (.atElement 0 leaf) ↔ (read piece >>= check) = .error leaf := by
  rw [h.readList_of_not_mem hpiece, mapError_eq_error_iff]
  simp

theorem Reader.readList_piece_eq_ok_iff (h : field.Reader read check) (hpiece : ',' ∉ piece) :
    field.readList piece = .ok () ↔ (read piece >>= check) = .ok () := by
  rw [h.readList_of_not_mem hpiece, mapError_eq_ok_iff]

theorem Reader.readElement_eq_ok_iff (h : field.Reader read check) :
    field.readElement piece = .ok () ↔ ∃ element, read piece = .ok element := by
  simp [h.readElement_eq, map_eq_ok_iff]

theorem Reader.fault_iff (h : field.Reader read check) :
    field.Fault s index leaf ↔ ListFault read check s index leaf := by
  constructor
  · intro hfault
    cases hfault with
    | @unread front rest piece leaf hpieces hfront hpiece hleaf =>
      have hcomma := hpieces.not_mem piece (by simp)
      rcases bind_eq_error_iff.mp ((h.readList_piece_eq_error_iff hcomma).mp hpiece) with
        hread | ⟨element, helement, hcheck⟩
      · exact .unread hpieces (fun _ hearlier => h.readElement_eq_ok_iff.mp (hfront _ hearlier)) hread
      · -- a check fails only for what is out of range
        obtain ⟨_, _, _, _, rfl⟩ := h.eq_outOfRange _ _ _ helement hcheck
        exact absurd rfl (hleaf _ _ _)
    | outOfRange hpieces hall hfront hpiece hspan hvalue =>
      refine .unfit hpieces (fun _ hother => h.readElement_eq_ok_iff.mp (hall _ hother))
        (fun earlier hearlier => ?_)
        ((h.readList_piece_eq_error_iff (hpieces.not_mem _ (by simp))).mp hpiece)
      exact (h.readList_piece_eq_ok_iff (hpieces.not_mem _ (by simp [hearlier]))).mp
        (hfront earlier hearlier)
  · intro hfault
    cases hfault with
    | @unread front rest piece leaf hpieces hfront hpiece =>
      refine .unread hpieces (fun _ hearlier => h.readElement_eq_ok_iff.mpr (hfront _ hearlier)) ?_
        (h.ne_outOfRange piece leaf hpiece)
      exact (h.readList_piece_eq_error_iff (hpieces.not_mem _ (by simp))).mpr
        (bind_eq_error_iff.mpr (.inl hpiece))
    | @unfit front rest piece leaf hpieces hall hfront hpiece =>
      have hcomma := hpieces.not_mem piece (by simp)
      obtain ⟨element, helement⟩ := hall piece (by simp)
      have hcheck : check element = .error leaf := by
        rw [helement] at hpiece
        exact hpiece
      obtain ⟨span, value, hspan, hvalue, rfl⟩ := h.eq_outOfRange _ _ _ helement hcheck
      refine .outOfRange hpieces (fun _ hother => h.readElement_eq_ok_iff.mpr (hall _ hother))
        (fun earlier hearlier => ?_) ((h.readList_piece_eq_error_iff hcomma).mpr hpiece) hspan hvalue
      exact (h.readList_piece_eq_ok_iff (hpieces.not_mem _ (by simp [hearlier]))).mpr
        (hfront earlier hearlier)

theorem Reader.readList_eq_error_iff (h : field.Reader read check) :
    field.readList s = .error cause ↔
      ∃ index leaf, field.Fault s index leaf ∧ cause = .atElement index leaf := by
  rw [h.readList_eq, map_eq_error_iff, readChecked_eq_error_iff]
  simp only [h.fault_iff]

end Reader

theorem readList_eq_error_iff : field.readList s = .error cause ↔
    ∃ index leaf, field.Fault s index leaf ∧ cause = .atElement index leaf := by
  by_cases h : field = .weekdays
  · subst h
    exact reader_weekdays.readList_eq_error_iff
  · exact (reader_of_ne h).readList_eq_error_iff

/-- The cause has no places around it, and its kind tells whether the field is that of the weekdays. -/
theorem Fault.root_eq_and_isWeekdayCause_iff (h : field.Fault s index leaf) :
    leaf.root = leaf ∧ (leaf.IsWeekdayCause ↔ field = .weekdays) := by
  by_cases hfield : field = .weekdays
  · subst hfield
    cases reader_weekdays.fault_iff.mp h with
    | unread _ _ hpiece =>
      cases WeekdaySpan.flaw_of_read hpiece <;> simp [ParseError.root, ParseError.IsWeekdayCause]
    | @unfit front rest piece leaf _ hall _ hpiece =>
      obtain ⟨_, helement⟩ := hall piece (by simp)
      rw [helement] at hpiece
      cases hpiece
  · cases (reader_of_ne hfield).fault_iff.mp h with
    | unread _ _ hpiece =>
      cases Span.flaw_of_read hpiece <;> simp [ParseError.root, ParseError.IsWeekdayCause, hfield]
    | @unfit front rest piece leaf _ hall _ hpiece =>
      obtain ⟨element, helement⟩ := hall piece (by simp)
      rw [helement] at hpiece
      obtain ⟨_, _, rfl⟩ := Span.checkBounds_eq_error_iff.mp hpiece
      simp [ParseError.root, ParseError.IsWeekdayCause, hfield]

end Field

end Recurrence
