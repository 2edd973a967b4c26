import Recurrence.Text.Numeral

/-!
# Numerals read back

What `digits` and `padded` write, `readNumber` reads back, up to `maxNumber` (`readNumber_digits`,
`readNumber_padded`); whatever is read is at most `maxNumber` (`le_maxNumber_of_readNumber`).  A
written number is made of digits alone, so it begins with no sign and none of the characters that
a text is cut at occurs in it (`not_mem_padded`).
-/

namespace Recurrence.Text

theorem isDigit_of_mem_digits {n : Nat} {c : Char} (h : c ∈ digits n) : c.isDigit :=
  Nat.isDigit_of_mem_toDigits (by decide) (by decide) h

theorem isDigit_of_mem_padded {width n : Nat} {c : Char} (h : c ∈ padded width n) : c.isDigit := by
  unfold padded at h
  rcases List.mem_append.mp h with h | h
  · rw [List.eq_of_mem_replicate h]; decide
  · exact isDigit_of_mem_digits h

theorem padded_zero (n : Nat) : padded 0 n = digits n := by
  simp [padded]

theorem padded_ne_nil (width n : Nat) : padded width n ≠ [] := by
  simp [padded, digits]

/-- A character that is no digit does not occur in a written number. -/
theorem not_mem_padded {c : Char} (hc : c.isDigit = false) (width n : Nat) : c ∉ padded width n := by
  intro h
  rw [isDigit_of_mem_padded h] at hc
  exact Bool.noConfusion hc

theorem not_mem_digits {c : Char} (hc : c.isDigit = false) (n : Nat) : c ∉ digits n := by
  rw [← padded_zero]
  exact not_mem_padded hc 0 n

theorem readDigits_padded (width n : Nat) : readDigits (padded width n) = some n := by
  have hdigits : (padded width n).all Char.isDigit = true :=
    List.all_eq_true.mpr fun _ => isDigit_of_mem_padded
  have hvalue : Nat.ofDigitChars 10 (padded width n) 0 = n := by
    rw [padded, Nat.ofDigitChars_append, Nat.ofDigitChars_replicate_zero, Nat.mul_zero]
    exact Nat.ofDigitChars_ten_toDigits
  rw [readDigits, if_pos ⟨padded_ne_nil width n, hdigits⟩, hvalue]

/-- A number without a sign is read by its digits. -/
theorem readNumber_of_no_sign {s : List Char} (hplus : '+' ∉ s) (hminus : '-' ∉ s) :
    readNumber s = (readDigits s).filter (· ≤ maxNumber) := by
  unfold readNumber
  split
  · exact absurd (List.mem_cons_self ..) hminus
  · exact absurd (List.mem_cons_self ..) hplus
  · rfl

theorem readNumber_padded {n : Nat} (h : n ≤ maxNumber) (width : Nat) :
    readNumber (padded width n) = some n := by
  rw [readNumber_of_no_sign (not_mem_padded (by decide) width n)
    (not_mem_padded (by decide) width n), readDigits_padded]
  simpa using h

theorem readNumber_digits {n : Nat} (h : n ≤ maxNumber) : readNumber (digits n) = some n := by
  rw [← padded_zero]
  exact readNumber_padded h 0

theorem le_maxNumber_of_readNumber {s : List Char} {n : Nat} (h : readNumber s = some n) :
    n ≤ maxNumber := by
  unfold readNumber at h
  split at h
  · obtain ⟨_, hzero⟩ := Option.filter_eq_some_iff.mp h
    rw [of_decide_eq_true hzero]
    exact Nat.zero_le _
  · exact of_decide_eq_true (Option.filter_eq_some_iff.mp h).2
  · exact of_decide_eq_true (Option.filter_eq_some_iff.mp h).2

end Recurrence.Text
