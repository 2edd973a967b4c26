import Recurrence.Text.Blank
import Recurrence.Text.Split

/-!
# Cutting what was joined

A text that is put together from pieces is cut into the same pieces, as long as no piece holds the
separator: `cutAt_append` for the first occurrence of a character, `splitDots_append` for a pair of
dots, `words_intercalate` for blanks.
-/

namespace Recurrence.Text

/-! ### Joined pieces -/

theorem mem_intercalate_singleton {α : Type} {a sep : α} {pieces : List (List α)}
    (h : a ∈ [sep].intercalate pieces) : a = sep ∨ ∃ piece ∈ pieces, a ∈ piece := by
  induction pieces with
  | nil => cases h
  | cons piece pieces ih =>
    cases pieces with
    | nil =>
      rw [List.intercalate_singleton] at h
      exact .inr ⟨piece, List.mem_cons_self .., h⟩
    | cons next pieces =>
      rw [List.intercalate_cons_cons, List.append_assoc, List.mem_append, List.mem_append] at h
      rcases h with h | h | h
      · exact .inr ⟨piece, List.mem_cons_self .., h⟩
      · exact .inl (List.mem_singleton.mp h)
      · rcases ih h with h | ⟨p, hp, h⟩
        · exact .inl h
        · exact .inr ⟨p, List.mem_cons_of_mem _ hp, h⟩

theorem length_splitOn (sep : Char) (s : List Char) : (s.splitOn sep).length = s.count sep + 1 := by
  induction s with
  | nil => rfl
  | cons c s ih =>
    rw [List.splitOn_eq_splitOnP] at ih ⊢
    rw [List.splitOnP_cons_eq_if_modifyHead, List.count_cons, apply_ite List.length, List.length_cons,
      List.length_modifyHead, ih]
    split <;> rfl

theorem two_le_length_splitOn {sep : Char} {s : List Char} (h : sep ∈ s) :
    2 ≤ (s.splitOn sep).length := by
  rw [length_splitOn]
  exact Nat.succ_le_succ (List.count_pos_iff.mpr h)

/-! ### The first occurrence of a character -/

theorem cutAt_append {sep : Char} {before : List Char} (h : sep ∉ before) (after : List Char) :
    cutAt sep (before ++ sep :: after) = some (before, after) := by
  induction before with
  | nil => simp [cutAt]
  | cons c before ih =>
    rw [List.mem_cons, not_or] at h
    rw [List.cons_append, cutAt, if_neg (Ne.symm h.1), ih h.2]
    rfl

theorem cutAt_of_not_mem {sep : Char} {s : List Char} (h : sep ∉ s) : cutAt sep s = none := by
  induction s with
  | nil => rfl
  | cons c s ih =>
    rw [List.mem_cons, not_or] at h
    rw [cutAt, if_neg (Ne.symm h.1), ih h.2]
    rfl

/-! ### Pairs of dots -/

theorem hasDots_of_not_mem {s : List Char} (h : '.' ∉ s) : hasDots s = false := by
  fun_induction hasDots s with
  | case1 => exact absurd (List.mem_cons_self ..) h
  | case2 c s _ ih => exact ih fun hs => h (List.mem_cons_of_mem c hs)
  | case3 => rfl

theorem hasDots_append (before after : List Char) : hasDots (before ++ '.' :: '.' :: after) := by
  induction before with
  | nil => simp [hasDots]
  | cons c before ih =>
    rw [List.cons_append]
    unfold hasDots
    split
    · rfl
    · rename_i heq
      obtain ⟨rfl, rfl⟩ := List.cons.inj heq
      exact ih
    · simp_all

theorem splitDots_of_not_mem {s : List Char} (h : '.' ∉ s) : splitDots s = [s] := by
  fun_induction splitDots s with
  | case1 => rfl
  | case2 => exact absurd (List.mem_cons_self ..) h
  | case3 c s _ ih =>
    rw [ih fun hs => h (List.mem_cons_of_mem c hs)]
    rfl

theorem splitDots_append {before : List Char} (h : '.' ∉ before) (after : List Char) :
    splitDots (before ++ '.' :: '.' :: after) = before :: splitDots after := by
  induction before with
  | nil => rw [List.nil_append, splitDots]
  | cons c before ih =>
    rw [List.mem_cons, not_or] at h
    rw [List.cons_append, splitDots, ih h.2]
    · rfl
    · intro s hc
      exact absurd hc.symm h.1

/-! ### Words -/

/-- Blanks are neither letters nor digits. -/
theorem not_isAlpha_and_not_isDigit_of_isBlank {c : Char} (h : isBlank c = true) :
    c.isAlpha = false ∧ c.isDigit = false := by
  have halpha : c.isAlpha = (decide ('A'.val ≤ c.val ∧ c.val ≤ 'Z'.val) ||
      decide ('a'.val ≤ c.val) && decide (c.val ≤ 'z'.val)) := rfl
  have hdigit : c.isDigit = (decide ('0'.val ≤ c.val) && decide (c.val ≤ '9'.val)) := rfl
  simp only [isBlank, Bool.or_eq_true, Bool.and_eq_true, decide_eq_true_eq, beq_iff_eq,
    Char.toNat] at h
  simp only [halpha, hdigit, Bool.or_eq_false_iff, Bool.and_eq_false_iff, decide_eq_false_iff_not,
    UInt32.le_iff_toNat_le, Char.reduceVal, UInt32.reduceToNat]
  omega

/-- The words of a text that begins with a word and a space. -/
theorem words_append {word : List Char} (hne : word ≠ []) (hword : ∀ c ∈ word, isBlank c = false)
    (rest : List Char) : words (word ++ ' ' :: rest) = word :: words rest := by
  unfold words
  rw [List.splitOnP_append_cons_of_forall_mem hword ' ' (by decide), List.filter_cons]
  simp [hne]

theorem words_of_not_blank {word : List Char} (hne : word ≠ [])
    (hword : ∀ c ∈ word, isBlank c = false) : words word = [word] := by
  unfold words
  rw [List.splitOnP_eq_singleton hword]
  simp [hne]

/-- Words joined by spaces are read one by one. -/
theorem words_intercalate (ws : List (List Char)) (hne : ∀ w ∈ ws, w ≠ [])
    (hblank : ∀ w ∈ ws, ∀ c ∈ w, isBlank c = false) : words ([' '].intercalate ws) = ws := by
  induction ws with
  | nil => rfl
  | cons w ws ih =>
    have hw := hne w (List.mem_cons_self ..)
    have hwblank := hblank w (List.mem_cons_self ..)
    cases ws with
    | nil =>
      rw [List.intercalate_singleton]
      exact words_of_not_blank hw hwblank
    | cons v ws =>
      have htail := ih (fun u hu => hne u (List.mem_cons_of_mem w hu))
        (fun u hu => hblank u (List.mem_cons_of_mem w hu))
      rw [List.intercalate_cons_cons, List.append_assoc, List.singleton_append,
        words_append hw hwblank, htail]

end Recurrence.Text
