import Mathlib.Data.List.TakeWhile
import Mathlib.Tactic.SplitIfs
import Recurrence.Proofs.Text.Numeral
import Recurrence.Proofs.Text.Split

/-!
# What a text is made of

For every way in which texts are cut there is a relation that says what they are put together from,
and the cut goes exactly by it: `Separated` for a separator, `HasWords` for words with blanks around
them, `Numeral` for numbers.  These relations are what a grammar is made of.
-/

namespace Recurrence.Text

variable {sep c : Char} {s before after word : List Char} {pieces ws : List (List Char)} {n : Nat}

/-! ### Pieces with a separator -/

/-- The text consists of pieces with separators between them: at least one piece, and none that holds
the separator. -/
structure Separated (sep : Char) (pieces : List (List Char)) (s : List Char) : Prop where
  ne_nil : pieces ≠ []
  not_mem : ∀ piece ∈ pieces, sep ∉ piece
  joined : [sep].intercalate pieces = s

/-- What is between the characters to cut at holds none of them. -/
theorem eq_false_of_mem_splitOnP {α : Type} {p : α → Bool} {s piece : List α} {a : α}
    (h : piece ∈ s.splitOnP p) (ha : a ∈ piece) : p a = false := by
  induction s generalizing piece with
  | nil =>
    rw [List.splitOnP_nil, List.mem_singleton] at h
    rw [h] at ha
    cases ha
  | cons b s ih =>
    rw [List.splitOnP_cons_eq_if_modifyHead] at h
    obtain ⟨first, rest, hsplit⟩ := List.exists_cons_of_ne_nil (List.splitOnP_ne_nil p s)
    rw [hsplit] at h ih
    split_ifs at h with hb
    · rcases List.mem_cons.mp h with rfl | h
      · cases ha
      · exact ih h ha
    · rcases List.mem_cons.mp h with rfl | h
      · rcases List.mem_cons.mp ha with rfl | ha
        · exact eq_false_of_ne_true hb
        · exact ih (List.mem_cons_self ..) ha
      · exact ih (List.mem_cons_of_mem _ h) ha

theorem splitOn_eq_iff : s.splitOn sep = pieces ↔ Separated sep pieces s := by
  constructor
  · rintro rfl
    refine ⟨List.splitOn_ne_nil _ _, fun piece hpiece hsep => ?_, List.intercalate_splitOn _⟩
    rw [List.splitOn_eq_splitOnP] at hpiece
    exact absurd (eq_false_of_mem_splitOnP hpiece hsep) (by simp)
  · rintro ⟨hne, hnot, rfl⟩
    exact List.splitOn_intercalate sep hnot hne

theorem Separated.forall_mem {p : Char → Prop} (h : Separated sep pieces s) (hsep : p sep)
    (hpieces : ∀ piece ∈ pieces, ∀ c ∈ piece, p c) : ∀ c ∈ s, p c := by
  intro c hc
  rw [← h.joined] at hc
  rcases mem_intercalate_singleton hc with rfl | ⟨piece, hpiece, hc⟩
  · exact hsep
  · exact hpieces piece hpiece c hc

theorem cutAt_eq_some_iff :
    cutAt sep s = some (before, after) ↔ sep ∉ before ∧ s = before ++ sep :: after := by
  constructor
  · intro h
    induction s generalizing before with
    | nil => cases h
    | cons c s ih =>
      rw [cutAt] at h
      split_ifs at h with hc
      · cases h
        exact ⟨List.not_mem_nil, by rw [hc, List.nil_append]⟩
      · obtain ⟨⟨before', after'⟩, hcut, heq⟩ := Option.map_eq_some_iff.mp h
        cases heq
        obtain ⟨hnot, rfl⟩ := ih hcut
        exact ⟨List.not_mem_cons_of_ne_of_not_mem (Ne.symm hc) hnot, rfl⟩
  · rintro ⟨hnot, rfl⟩
    exact cutAt_append hnot after

theorem cutAt_eq_none_iff : cutAt sep s = none ↔ sep ∉ s := by
  refine ⟨fun h hmem => ?_, cutAt_of_not_mem⟩
  obtain ⟨before, after, rfl, hnot⟩ := List.eq_append_cons_of_mem hmem
  rw [cutAt_append hnot] at h
  cases h

/-- Nothing but pairs of dots is lost between the pieces. -/
theorem intercalate_splitDots (s : List Char) : ['.', '.'].intercalate (splitDots s) = s := by
  have hne (s : List Char) : splitDots s ≠ [] := by
    fun_induction splitDots s with
    | case1 => exact List.cons_ne_nil _ _
    | case2 => exact List.cons_ne_nil _ _
    | case3 c s _ ih => simpa using ih
  fun_induction splitDots s with
  | case1 => rfl
  | case2 s ih => rw [List.intercalate_cons_of_ne_nil (hne s), ih]; rfl
  | case3 c s _ ih =>
    obtain ⟨first, rest, hsplit⟩ := List.exists_cons_of_ne_nil (hne s)
    rw [hsplit] at ih ⊢
    cases rest with
    | nil => simpa using ih
    | cons => simpa [List.intercalate_cons_cons] using ih

theorem eq_of_splitDots_eq_pair (h : splitDots s = [before, after]) :
    s = before ++ '.' :: '.' :: after := by
  rw [← intercalate_splitDots s, h]
  simp [List.intercalate_cons_cons]

/-! ### Words -/

/-- The text consists of words with blanks around them: the words are not empty and have no blanks in
them, and there is a blank at least behind each but the last. -/
inductive HasWords : List (List Char) → List Char → Prop
  | blanks {gap : List Char} (hgap : ∀ c ∈ gap, isBlank c = true) : HasWords [] gap
  | word {gap word rest : List Char} {ws : List (List Char)} (hgap : ∀ c ∈ gap, isBlank c = true)
      (hne : word ≠ []) (hword : ∀ c ∈ word, isBlank c = false)
      (hrest : ∀ c ∈ rest.head?, isBlank c = true) (hwords : HasWords ws rest) :
      HasWords (word :: ws) (gap ++ word ++ rest)

theorem words_append_cons (hc : isBlank c = true) :
    words (s ++ c :: after) = words s ++ words after := by
  rw [words, List.splitOnP_append_cons _ _ hc, List.filter_append]
  rfl

theorem words_cons (hc : isBlank c = true) : words (c :: s) = words s :=
  words_append_cons (s := []) hc

theorem words_gap_append {gap : List Char} (hgap : ∀ c ∈ gap, isBlank c = true) :
    words (gap ++ s) = words s := by
  induction gap with
  | nil => rfl
  | cons c gap ih =>
    rw [List.cons_append, words_cons (hgap c (List.mem_cons_self ..))]
    exact ih fun d hd => hgap d (List.mem_cons_of_mem c hd)

/-- A word goes on up to the next blank. -/
theorem words_word_append (hne : word ≠ []) (hword : ∀ c ∈ word, isBlank c = false)
    (hrest : ∀ c ∈ s.head?, isBlank c = true) : words (word ++ s) = word :: words s := by
  cases s with
  | nil => rw [List.append_nil, words_of_not_blank hne hword]; rfl
  | cons c s =>
    have hc := hrest c rfl
    rw [words_append_cons hc, words_of_not_blank hne hword, words_cons hc]
    rfl

theorem HasWords.gap_append {gap : List Char} (hgap : ∀ c ∈ gap, isBlank c = true)
    (h : HasWords ws s) : HasWords ws (gap ++ s) := by
  cases h with
  | blanks h => exact .blanks (List.forall_mem_append.mpr ⟨hgap, h⟩)
  | word hgap' hne hword hrest hwords =>
    rw [← List.append_assoc, ← List.append_assoc]
    exact .word (List.forall_mem_append.mpr ⟨hgap, hgap'⟩) hne hword hrest hwords

/-- A text begins with a run of characters of one kind, up to the first one that is not of it. -/
theorem exists_run (p : Char → Bool) (s : List Char) :
    ∃ run rest, s = run ++ rest ∧ (∀ c ∈ run, p c = true) ∧ ∀ c ∈ rest.head?, p c = false := by
  refine ⟨s.takeWhile p, s.dropWhile p, List.takeWhile_append_dropWhile.symm,
    fun c => List.mem_takeWhile_imp, fun c hc => ?_⟩
  have hnot := List.head?_dropWhile_not p s
  rwa [Option.mem_def.mp hc] at hnot

theorem hasWords_words (s : List Char) : HasWords (words s) s := by
  -- a gap, a word, and then what is left, which is shorter
  obtain ⟨gap, text, rfl, hgap, htext⟩ := exists_run isBlank s
  rw [words_gap_append hgap]
  refine HasWords.gap_append hgap ?_
  cases text with
  | nil => exact .blanks fun _ h => absurd h List.not_mem_nil
  | cons c text =>
    obtain ⟨run, rest, rfl, hrun, hrest⟩ := exists_run (!isBlank ·) text
    have hword : ∀ d ∈ c :: run, isBlank d = false :=
      List.forall_mem_cons.mpr ⟨htext c rfl, fun d hd => by simpa using hrun d hd⟩
    have hrest : ∀ d ∈ rest.head?, isBlank d = true := fun d hd => by simpa using hrest d hd
    have hne : c :: run ≠ [] := List.cons_ne_nil _ _
    have hshorter : rest.length < (gap ++ c :: (run ++ rest)).length := by
      simp only [List.length_append, List.length_cons]
      omega
    rw [← List.cons_append, words_word_append hne hword hrest]
    exact @HasWords.word [] _ _ _ (fun _ h => absurd h List.not_mem_nil) hne hword hrest
      (hasWords_words rest)
termination_by s.length

theorem words_eq_iff : words s = ws ↔ HasWords ws s := by
  refine ⟨fun h => h ▸ hasWords_words s, fun h => ?_⟩
  induction h with
  | @blanks gap hgap =>
    rw [← List.append_nil gap]
    exact words_gap_append hgap
  | word hgap hne hword hrest _ ih =>
    rw [List.append_assoc, words_gap_append hgap, words_word_append hne hword hrest, ih]

theorem ne_nil_of_mem_words (h : word ∈ words s) : word ≠ [] := by
  simpa using (List.mem_filter.mp h).2

theorem isBlank_of_mem_words (h : word ∈ words s) (hc : c ∈ word) : isBlank c = false :=
  eq_false_of_mem_splitOnP (List.mem_filter.mp h).1 hc

/-! ### Numerals -/

/-- A sign, which may be missing, and the factor that it stands for. -/
inductive Sign : List Char → Int → Prop
  | none : Sign [] 1
  | plus : Sign ['+'] 1
  | minus : Sign ['-'] (-1)

/-- The text is a sign and decimal digits, and what they stand for is a number of 32 bits. -/
inductive Numeral : List Char → Nat → Prop
  | intro {sign digits : List Char} {factor : Int} {n : Nat} (hsign : Sign sign factor)
      (hne : digits ≠ []) (hdigits : ∀ c ∈ digits, c.isDigit)
      (hvalue : factor * Nat.ofDigitChars 10 digits 0 = n) (hle : n ≤ maxNumber) :
      Numeral (sign ++ digits) n

theorem readDigits_eq_some_iff : readDigits s = some n ↔
    s ≠ [] ∧ (∀ c ∈ s, c.isDigit) ∧ Nat.ofDigitChars 10 s 0 = n := by
  unfold readDigits
  rw [Option.ite_none_right_eq_some, List.all_eq_true, and_assoc, Option.some.injEq]

theorem readNumber_eq_some_iff : readNumber s = some n ↔ Numeral s n := by
  constructor
  · intro h
    unfold readNumber at h
    split at h
    all_goals
      obtain ⟨hread, hn⟩ := Option.filter_eq_some_iff.mp h
      obtain ⟨hne, hdigits, rfl⟩ := readDigits_eq_some_iff.mp hread
      have hn := of_decide_eq_true hn
    · refine .intro .minus hne hdigits ?_ ?_
      all_goals rw [hn]
      · rfl
      · exact Nat.zero_le _
    · exact .intro .plus hne hdigits (Int.one_mul _) hn
    · exact .intro .none hne hdigits (Int.one_mul _) hn
  · rintro @⟨sign, digits, factor, n, hsign, hne, hdigits, hvalue, hle⟩
    have hread := readDigits_eq_some_iff.mpr ⟨hne, hdigits, rfl⟩
    cases hsign with
    | none =>
      have hplus : '+' ∉ digits := fun h => absurd (hdigits _ h) (by decide)
      have hminus : '-' ∉ digits := fun h => absurd (hdigits _ h) (by decide)
      rw [List.nil_append, readNumber_of_no_sign hplus hminus, hread]
      exact Option.filter_eq_some_iff.mpr ⟨congrArg some (by omega), decide_eq_true hle⟩
    | plus =>
      exact Option.filter_eq_some_iff.mpr ⟨hread.trans (congrArg some (by omega)), decide_eq_true hle⟩
    | minus =>
      -- minus a natural number is one only for zero
      have hzero : n = 0 := by omega
      exact Option.filter_eq_some_iff.mpr
        ⟨hread.trans (congrArg some (by omega)), decide_eq_true hzero⟩

/-- The text is decimal digits with or without a plus sign in front, and what they stand for is a number of
64 bits. -/
inductive Index : List Char → Nat → Prop
  | intro {sign digits : List Char} {n : Nat} (hsign : sign = [] ∨ sign = ['+']) (hne : digits ≠ [])
      (hdigits : ∀ c ∈ digits, c.isDigit) (hvalue : Nat.ofDigitChars 10 digits 0 = n)
      (hle : n ≤ maxIndex) : Index (sign ++ digits) n

/-- The characters of a numeral. -/
theorem Numeral.eq_sign_or_isDigit (h : Numeral s n) (hc : c ∈ s) : c = '+' ∨ c = '-' ∨ c.isDigit := by
  obtain ⟨hsign, _, hdigits, _, _⟩ := h
  rcases List.mem_append.mp hc with hc | hc
  · cases hsign with
    | none => cases hc
    | plus => exact .inl (List.mem_singleton.mp hc)
    | minus => exact .inr (.inl (List.mem_singleton.mp hc))
  · exact .inr (.inr (hdigits c hc))

/-- Digits and signs come before the colon. -/
theorem Numeral.lt_colon (h : Numeral s n) : ∀ c ∈ s, c < ':' := by
  intro c hc
  rcases h.eq_sign_or_isDigit hc with rfl | rfl | hdigit
  · decide
  · decide
  · exact lt_of_le_of_lt (Char.isDigit_iff_toNat.mp hdigit).2 (by decide : '9' < ':')

/-- A character that is neither a sign nor a digit does not occur in a numeral. -/
theorem Numeral.not_mem (h : Numeral s n) (hplus : c ≠ '+') (hminus : c ≠ '-')
    (hdigit : c.isDigit = false) : c ∉ s := by
  intro hc
  rcases h.eq_sign_or_isDigit hc with rfl | rfl | hc
  · exact hplus rfl
  · exact hminus rfl
  · exact Bool.noConfusion (hdigit.symm.trans hc)

end Recurrence.Text
