import Mathlib.Tactic.SplitIfs
import Recurrence.Text.Utf8

/-!
# Text as bytes and back

The bytes of a text stand for this text (`ofUtf8?_utf8`).  In them, a byte of ASCII stands for itself
wherever it occurs: an ASCII character is one byte, its number (`utf8EncodeChar_of_lt`), and all bytes of
the others are above ASCII (`le_of_mem_utf8EncodeChar`).
-/

namespace Recurrence.Text

theorem ofUtf8?_utf8 (s : List Char) : ofUtf8? (utf8 s) = some (String.ofList s) := by
  have hbytes : (⟨(utf8 s).toArray⟩ : ByteArray) = s.utf8Encode := by
    rw [List.utf8Encode, ← List.data_toByteArray]
    rfl
  have hvalid : s.utf8Encode.IsValidUTF8 := ⟨s, rfl⟩
  rw [ofUtf8?, hbytes, String.fromUTF8?, dif_pos hvalid]
  rfl

theorem utf8_append (s t : List Char) : utf8 (s ++ t) = utf8 s ++ utf8 t :=
  List.flatMap_append ..

theorem utf8_cons (c : Char) (s : List Char) : utf8 (c :: s) = String.utf8EncodeChar c ++ utf8 s :=
  List.flatMap_cons ..

/-- The characters of ASCII are their own bytes. -/
theorem utf8EncodeChar_of_lt {c : Char} (h : c.toNat < 0x80) :
    String.utf8EncodeChar c = [UInt8.ofNat c.toNat] := by
  have hval : c.val.toNat = c.toNat := rfl
  unfold String.utf8EncodeChar
  simp only [hval]
  rw [if_pos (by omega)]

/-- No byte of another character is a byte of ASCII. -/
theorem le_of_mem_utf8EncodeChar {c : Char} (h : 0x80 ≤ c.toNat) {b : UInt8}
    (hb : b ∈ String.utf8EncodeChar c) : 0x80 ≤ b.toNat := by
  have hval : c.val.toNat = c.toNat := rfl
  unfold String.utf8EncodeChar at hb
  simp only [hval] at hb
  split_ifs at hb
  · omega
  all_goals
    simp only [List.mem_cons, List.not_mem_nil, or_false] at hb
    rcases hb with rfl | rfl | rfl | rfl <;> rw [UInt8.toNat_ofNat'] <;> omega

end Recurrence.Text
