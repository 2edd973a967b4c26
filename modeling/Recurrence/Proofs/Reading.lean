import Mathlib.Data.List.Forall2
import Recurrence.Span.Text

/-!
# Readings that succeed

A reader gives a value or the cause of its failure.  A reader that is put together from others
succeeds exactly if they do (`bind_eq_ok_iff`, `map_eq_ok_iff`, `mapError_eq_ok_iff`), and a list
is read exactly if each of its pieces is (`readElements_eq_ok_iff`).  If one does not succeed, the first
failure is reported (`bind_eq_error_iff`, `readElements_eq_error_iff`).
-/

namespace Recurrence

variable {α β ε ε' : Type}

theorem bind_eq_ok_iff {x : Except ε α} {f : α → Except ε β} {b : β} :
    (x >>= f) = .ok b ↔ ∃ a, x = .ok a ∧ f a = .ok b := by
  cases x <;> simp [bind, Except.bind]

theorem map_eq_ok_iff {x : Except ε α} {f : α → β} {b : β} :
    x.map f = .ok b ↔ ∃ a, x = .ok a ∧ f a = b := by
  cases x <;> simp [Except.map]

theorem mapError_eq_ok_iff {x : Except ε α} {f : ε → ε'} {a : α} :
    x.mapError f = .ok a ↔ x = .ok a := by
  cases x <;> simp [Except.mapError]

theorem bind_eq_error_iff {x : Except ε α} {f : α → Except ε β} {cause : ε} :
    (x >>= f) = .error cause ↔ x = .error cause ∨ ∃ a, x = .ok a ∧ f a = .error cause := by
  cases x <;> simp [bind, Except.bind]

theorem map_eq_error_iff {x : Except ε α} {f : α → β} {cause : ε} :
    x.map f = .error cause ↔ x = .error cause := by
  cases x <;> simp [Except.map]

theorem mapError_eq_error_iff {x : Except ε α} {f : ε → ε'} {cause : ε'} :
    x.mapError f = .error cause ↔ ∃ inner, x = .error inner ∧ f inner = cause := by
  cases x <;> simp [Except.mapError]

theorem toOption_eq_some_iff {x : Except ε α} {a : α} : x.toOption = some a ↔ x = .ok a := by
  cases x <;> simp [Except.toOption]

theorem mapM_eq_ok_iff {read : α → Except ε β} {xs : List α} {ys : List β} :
    xs.mapM read = .ok ys ↔ List.Forall₂ (fun x y => read x = .ok y) xs ys := by
  induction xs generalizing ys with
  | nil => cases ys <;> simp [pure, Except.pure]
  | cons x xs ih =>
    simp only [List.mapM_cons, bind_eq_ok_iff, ih, List.forall₂_cons_left_iff]
    constructor
    · rintro ⟨y, hy, ys', hys, h⟩
      exact ⟨y, ys', hy, hys, (Except.ok.inj h).symm⟩
    · rintro ⟨y, ys', hy, hys, rfl⟩
      exact ⟨y, hy, ys', hys, rfl⟩

/-- The first failure decides. -/
theorem mapM_eq_error_iff {read : α → Except ε β} {xs : List α} {cause : ε} :
    xs.mapM read = .error cause ↔ ∃ front x rest, xs = front ++ x :: rest ∧
      (∀ y ∈ front, ∃ b, read y = .ok b) ∧ read x = .error cause := by
  induction xs with
  | nil => simp [pure, Except.pure]
  | cons x xs ih =>
    rw [List.mapM_cons]
    constructor
    · intro h
      cases hx : read x with
      | error cause' =>
        rw [hx] at h
        cases h
        exact ⟨[], x, xs, rfl, by simp, hx⟩
      | ok b =>
        cases hxs : xs.mapM read with
        | ok bs =>
          rw [hx, hxs] at h
          cases h
        | error cause' =>
          rw [hx, hxs] at h
          cases h
          obtain ⟨front, y, rest, rfl, hfront, hy⟩ := ih.mp hxs
          exact ⟨x :: front, y, rest, rfl, List.forall_mem_cons.mpr ⟨⟨b, hx⟩, hfront⟩, hy⟩
    · rintro ⟨front, y, rest, hsplit, hfront, hy⟩
      cases front with
      | nil =>
        cases hsplit
        rw [hy]
        rfl
      | cons x' front =>
        cases hsplit
        obtain ⟨⟨b, hx⟩, hfront⟩ := List.forall_mem_cons.mp hfront
        rw [hx, ih.mpr ⟨front, y, rest, rfl, hfront, hy⟩]
        rfl

/-- All pieces are read if the list is, each by itself. -/
theorem readElements_eq_ok_iff {read : α → Except ParseError β} {index : Nat} {xs : List α}
    {ys : List β} :
    readElements read index xs = .ok ys ↔ List.Forall₂ (fun x y => read x = .ok y) xs ys := by
  induction xs generalizing index ys with
  | nil => cases ys <;> simp [readElements]
  | cons x xs ih =>
    cases hx : read x with
    | error cause => cases ys <;> simp [readElements, hx]
    | ok y =>
      simp only [readElements, hx, map_eq_ok_iff, ih]
      cases ys with
      | nil => simp
      | cons y' ys => simp [hx, and_comm]

/-- The first piece that cannot be read decides, and its number goes with the cause. -/
theorem readElements_eq_error_iff {read : α → Except ParseError β} {index : Nat} {xs : List α}
    {cause : ParseError} :
    readElements read index xs = .error cause ↔ ∃ front x rest leaf, xs = front ++ x :: rest ∧
      (∀ y ∈ front, ∃ b, read y = .ok b) ∧ read x = .error leaf ∧
        cause = .atElement (index + front.length) leaf := by
  induction xs generalizing index with
  | nil => simp [readElements]
  | cons x xs ih =>
    rw [readElements]
    constructor
    · intro h
      cases hx : read x with
      | error leaf =>
        rw [hx] at h
        cases h
        exact ⟨[], x, xs, leaf, rfl, by simp, hx, rfl⟩
      | ok b =>
        rw [hx] at h
        obtain ⟨front, y, rest, leaf, rfl, hfront, hy, rfl⟩ := ih.mp (map_eq_error_iff.mp h)
        refine ⟨x :: front, y, rest, leaf, rfl, List.forall_mem_cons.mpr ⟨⟨b, hx⟩, hfront⟩, hy, ?_⟩
        rw [List.length_cons, Nat.add_assoc, Nat.add_comm 1]
    · rintro ⟨front, y, rest, leaf, hsplit, hfront, hy, rfl⟩
      cases front with
      | nil =>
        cases hsplit
        rw [hy]
        rfl
      | cons x' front =>
        cases hsplit
        obtain ⟨⟨b, hx⟩, hfront⟩ := List.forall_mem_cons.mp hfront
        rw [hx]
        refine map_eq_error_iff.mpr (ih.mpr ⟨front, y, rest, leaf, rfl, hfront, hy, ?_⟩)
        rw [List.length_cons, Nat.add_assoc, Nat.add_comm 1]

/-- Whatever is in the second of two lists that belong together has a counterpart in the first. -/
theorem exists_of_forall₂_of_mem {r : α → β → Prop} {xs : List α} {ys : List β}
    (h : List.Forall₂ r xs ys) {y : β} (hy : y ∈ ys) : ∃ x ∈ xs, r x y := by
  induction h with
  | nil => cases hy
  | @cons x y' xs ys hread _ ih =>
    rcases List.mem_cons.mp hy with rfl | hy
    · exact ⟨x, List.mem_cons_self .., hread⟩
    · obtain ⟨x', hx', hread'⟩ := ih hy
      exact ⟨x', List.mem_cons_of_mem x hx', hread'⟩

theorem exists_read_of_mem {read : α → Except ParseError β} {index : Nat} {xs : List α}
    {ys : List β} (h : readElements read index xs = .ok ys) {y : β} (hy : y ∈ ys) :
    ∃ x ∈ xs, read x = .ok y :=
  exists_of_forall₂_of_mem (readElements_eq_ok_iff.mp h) hy

/-- A list is read if each of its pieces can be. -/
theorem exists_readElements_eq_ok_iff {read : α → Except ParseError β} {index : Nat} {xs : List α} :
    (∃ ys, readElements read index xs = .ok ys) ↔ ∀ x ∈ xs, ∃ y, read x = .ok y := by
  constructor
  · rintro ⟨ys, h⟩ x hx
    obtain ⟨y, _, hread⟩ := exists_of_forall₂_of_mem (readElements_eq_ok_iff.mp h).flip hx
    exact ⟨y, hread⟩
  · intro h
    cases hread : readElements read index xs with
    | ok ys => exact ⟨ys, rfl⟩
    | error cause =>
      obtain ⟨front, x, rest, leaf, rfl, _, hleaf, _⟩ := readElements_eq_error_iff.mp hread
      obtain ⟨y, hy⟩ := h x (by simp)
      rw [hleaf] at hy
      cases hy

/-! ### Lists with a separator -/

theorem ne_nil_of_readElements_splitOn {read : List Char → Except ParseError β} {index : Nat}
    {sep : Char} {s : List Char} {ys : List β}
    (h : readElements read index (s.splitOn sep) = .ok ys) : ys ≠ [] := by
  rintro rfl
  exact List.splitOn_ne_nil sep s (List.forall₂_nil_right_iff.mp (readElements_eq_ok_iff.mp h))

/-- A list that is joined from texts without the separator is read back if its elements are. -/
theorem readElements_splitOn_intercalate {read : List Char → Except ParseError β} {index : Nat}
    {chars : β → List Char} {sep : Char} {xs : List β} (hne : xs ≠ [])
    (hsep : ∀ x ∈ xs, sep ∉ chars x) (hread : ∀ x ∈ xs, read (chars x) = .ok x) :
    readElements read index (([sep].intercalate (xs.map chars)).splitOn sep) = .ok xs := by
  have hcut : ([sep].intercalate (xs.map chars)).splitOn sep = xs.map chars := by
    apply List.splitOn_intercalate
    · intro piece hpiece
      obtain ⟨x, hx, rfl⟩ := List.mem_map.mp hpiece
      exact hsep x hx
    · simpa using hne
  rw [hcut, readElements_eq_ok_iff, List.forall₂_map_left_iff, List.forall₂_same]
  exact hread

end Recurrence
