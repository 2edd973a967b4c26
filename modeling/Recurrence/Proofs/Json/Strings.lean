import Recurrence.Json.Decode
import Recurrence.Json.Encode
import Recurrence.Proofs.Reading
import Recurrence.Proofs.Text.Utf8

/-!
# Strings written and read

A text that is written as a string of JSON is read back as it was (`Json.text_stringChars`), whatever
characters it has and whatever follows the string.  The scanner works on bytes: a character that is
escaped begins with a backslash, and what follows it stands for the bytes of the character; all others
are their own bytes, none of which ends the string, begins an escape or is refused
(`Json.escapeChar_bytes`).  A scanner that finishes in some steps gives the same in more
(`Json.scanStringBytes_mono`), so their number need not be counted.
-/

namespace Recurrence.Json

open Byte

/-! ### The scanner, step by step -/

section scan

variable {escape : Bytes → Except Fault (Bytes × Bytes)} {steps more : Nat}
  {s rest bytes part : Bytes} {b : UInt8}

theorem scanStringBytes_escape (hescape : escape part = .ok (bytes, s))
    {result : Bytes × Bytes} (h : scanStringBytes escape steps s = .ok result) :
    scanStringBytes escape (steps + 1) (backslash :: part) = .ok (bytes ++ result.1, result.2) :=
  bind_eq_ok_iff.mpr ⟨_, hescape, bind_eq_ok_iff.mpr ⟨_, h, rfl⟩⟩

/-- A byte that stands for itself in a string. -/
structure Plain (b : UInt8) : Prop where
  ne_quote : b ≠ quote
  ne_backslash : b ≠ backslash
  not_control : isControl b = false

theorem scanStringBytes_plain (hb : Plain b) {result : Bytes × Bytes}
    (h : scanStringBytes escape steps s = .ok result) :
    scanStringBytes escape (steps + 1) (b :: s) = .ok (b :: result.1, result.2) := by
  rw [scanStringBytes, hb.not_control]
  case x_2 => exact hb.ne_quote
  case x_3 => exact hb.ne_backslash
  exact bind_eq_ok_iff.mpr ⟨_, h, rfl⟩

theorem scanStringBytes_plain_append (hbytes : ∀ b ∈ bytes, Plain b) {result : Bytes × Bytes}
    (h : scanStringBytes escape steps s = .ok result) :
    scanStringBytes escape (bytes.length + steps) (bytes ++ s) = .ok (bytes ++ result.1, result.2) := by
  induction bytes with
  | nil => rwa [List.length_nil, Nat.zero_add]
  | cons b bytes ih =>
    rw [List.length_cons, Nat.add_right_comm]
    exact scanStringBytes_plain (hbytes b (List.mem_cons_self ..))
      (ih fun c hc => hbytes c (List.mem_cons_of_mem b hc))

/-- More steps change nothing if the scanner has finished. -/
theorem scanStringBytes_mono {result : Bytes × Bytes} (h : scanStringBytes escape steps s = .ok result)
    (hle : steps ≤ more) : scanStringBytes escape more s = .ok result := by
  fun_induction scanStringBytes escape steps s generalizing more result with
  | case1 => cases h
  | case2 => cases h
  | case3 steps rest =>
    obtain ⟨more, rfl⟩ := Nat.exists_eq_succ_of_ne_zero (show more ≠ 0 by omega)
    exact h
  | case4 steps rest ih =>
    obtain ⟨more, rfl⟩ := Nat.exists_eq_succ_of_ne_zero (show more ≠ 0 by omega)
    obtain ⟨⟨bytes, after⟩, hescape, h⟩ := bind_eq_ok_iff.mp h
    obtain ⟨tail, htail, h⟩ := bind_eq_ok_iff.mp h
    cases h
    exact scanStringBytes_escape hescape (ih _ htail (by omega))
  | case5 steps b rest hquote hbackslash hcontrol => cases h
  | case6 steps b rest hquote hbackslash hcontrol ih =>
    obtain ⟨more, rfl⟩ := Nat.exists_eq_succ_of_ne_zero (show more ≠ 0 by omega)
    obtain ⟨tail, htail, h⟩ := bind_eq_ok_iff.mp h
    cases h
    exact scanStringBytes_plain ⟨hquote, hbackslash, eq_false_of_ne_true hcontrol⟩
      (ih htail (by omega))

end scan

/-! ### A character in a string -/

theorem hexValue?_digitChar : ∀ d < 16,
    String.utf8EncodeChar (Nat.digitChar d) = [UInt8.ofNat (Nat.digitChar d).toNat] ∧
      hexValue? (UInt8.ofNat (Nat.digitChar d).toNat) = some d := by
  decide

/-- A control character is read from the four digits of its number. -/
theorem scanCodePoint_digits {c : Char} (h : c.toNat < 0x20) (s : Bytes) :
    scanCodePoint (Text.utf8 ['0', '0', Nat.digitChar (c.toNat / 16), Nat.digitChar (c.toNat % 16)] ++ s)
      = .ok (String.utf8EncodeChar c, s) := by
  obtain ⟨hhigh, hhighValue⟩ := hexValue?_digitChar (c.toNat / 16) (by omega)
  obtain ⟨hlow, hlowValue⟩ := hexValue?_digitChar (c.toNat % 16) (by omega)
  obtain ⟨hzero, hzeroValue⟩ := hexValue?_digitChar 0 (by decide)
  have hzero : String.utf8EncodeChar '0' = [UInt8.ofNat (Nat.digitChar 0).toNat] := hzero
  have hcode : ((0 * 16 + 0) * 16 + c.toNat / 16) * 16 + c.toNat % 16 = c.toNat := by omega
  have hhex : scanHex (Text.utf8 ['0', '0', Nat.digitChar (c.toNat / 16),
      Nat.digitChar (c.toNat % 16)] ++ s) = .ok (c.toNat, s) := by
    simp only [Text.utf8, List.flatMap_cons, List.flatMap_nil, hzero, hhigh, hlow, List.cons_append,
      List.nil_append, scanHex, hzeroValue, hhighValue, hlowValue, hcode]
  refine bind_eq_ok_iff.mpr ⟨_, hhex, ?_⟩
  simp only
  rw [if_neg (by omega), if_neg (by omega), Char.ofNat_toNat]
  rfl

/-- The bytes of a character that is not escaped stand for themselves. -/
theorem plain_of_mem_utf8EncodeChar {c : Char} (hcontrol : ¬c.toNat < 0x20) (hquote : c ≠ '"')
    (hbackslash : c ≠ '\\') {b : UInt8} (hb : b ∈ String.utf8EncodeChar c) : Plain b := by
  -- a byte of ASCII is the whole character
  have hbyte : c.toNat = b.toNat ∨ 0x80 ≤ b.toNat := by
    by_cases hascii : c.toNat < 0x80
    · rw [Text.utf8EncodeChar_of_lt hascii, List.mem_singleton] at hb
      rw [hb, UInt8.toNat_ofNat']
      omega
    · exact .inr (Text.le_of_mem_utf8EncodeChar (by omega) hb)
  refine ⟨?_, ?_, ?_⟩
  · rintro rfl
    have hc : c.toNat = '"'.toNat := hbyte.resolve_right (by decide)
    exact hquote (Char.toNat_inj.mp hc)
  · rintro rfl
    have hc : c.toNat = '\\'.toNat := hbyte.resolve_right (by decide)
    exact hbackslash (Char.toNat_inj.mp hc)
  · rw [isControl, decide_eq_false_iff_not, UInt8.lt_iff_toNat_lt]
    have hbound : (0x20 : UInt8).toNat = 0x20 := rfl
    omega

/-- A character begins with a backslash, and what follows is read as the character; or it stands for
itself. -/
theorem escapeChar_bytes (c : Char) :
    (∃ part, Text.utf8 (escapeChar c) = backslash :: part ∧
      ∀ s, scanEscape (part ++ s) = .ok (String.utf8EncodeChar c, s)) ∨
    Text.utf8 (escapeChar c) = String.utf8EncodeChar c ∧ ∀ b ∈ String.utf8EncodeChar c, Plain b := by
  unfold escapeChar
  split
  · exact .inl ⟨[quote], by decide, fun s => rfl⟩
  · exact .inl ⟨[backslash], by decide, fun s => rfl⟩
  · exact .inl ⟨[letterB], by decide, fun s => rfl⟩
  · exact .inl ⟨[letterT], by decide, fun s => rfl⟩
  · exact .inl ⟨[letterN], by decide, fun s => rfl⟩
  · exact .inl ⟨[letterF], by decide, fun s => rfl⟩
  · exact .inl ⟨[letterR], by decide, fun s => rfl⟩
  next hquote hbackslash _ _ _ _ _ =>
    split_ifs with hcontrol
    · exact .inl ⟨letterU :: _, rfl, scanCodePoint_digits hcontrol⟩
    · exact .inr ⟨List.append_nil _, fun b => plain_of_mem_utf8EncodeChar hcontrol hquote hbackslash⟩

theorem scanStringBytes_escapeChar {steps : Nat} {s : Bytes} {result : Bytes × Bytes}
    (h : scanStringBytes scanEscape steps s = .ok result) (c : Char) :
    scanStringBytes scanEscape ((Text.utf8 (escapeChar c)).length + steps)
      (Text.utf8 (escapeChar c) ++ s) = .ok (String.utf8EncodeChar c ++ result.1, result.2) := by
  rcases escapeChar_bytes c with ⟨part, hbytes, hescape⟩ | ⟨hbytes, hplain⟩
  · rw [hbytes]
    have hsteps : steps + 1 ≤ (backslash :: part).length + steps := by
      rw [List.length_cons]
      omega
    exact scanStringBytes_mono (scanStringBytes_escape (hescape s) h) hsteps
  · rw [hbytes]
    exact scanStringBytes_plain_append hplain h

/-! ### Strings -/

theorem utf8_stringChars (s : List Char) :
    Text.utf8 (stringChars s) = quote :: (Text.utf8 (s.flatMap escapeChar) ++ [quote]) := by
  rw [stringChars, List.cons_append, Text.utf8_cons, Text.utf8_append]
  rfl

theorem scanStringBytes_stringChars (s : List Char) (rest : Bytes) :
    scanStringBytes scanEscape ((Text.utf8 (s.flatMap escapeChar)).length + 1)
      (Text.utf8 (s.flatMap escapeChar) ++ quote :: rest) = .ok (Text.utf8 s, rest) := by
  induction s with
  | nil => rfl
  | cons c s ih =>
    have hstep := scanStringBytes_escapeChar ih c
    rwa [List.flatMap_cons, Text.utf8_append, List.length_append, List.append_assoc, Nat.add_assoc,
      Text.utf8_cons]

/-- A string is read back as it was written. -/
theorem scanString_stringChars (s : List Char) (rest : Bytes) :
    scanString (Text.utf8 (s.flatMap escapeChar) ++ quote :: rest) = .ok (String.ofList s, rest) := by
  have hsteps : (Text.utf8 (s.flatMap escapeChar)).length + 1
      ≤ (Text.utf8 (s.flatMap escapeChar) ++ quote :: rest).length := by
    simp
  refine bind_eq_ok_iff.mpr ⟨_, scanStringBytes_mono (scanStringBytes_stringChars s rest) hsteps, ?_⟩
  simp only [Text.ofUtf8?_utf8]
  rfl

theorem text_stringChars (s : List Char) (rest : Bytes) :
    text (Text.utf8 (stringChars s) ++ rest) = .ok (String.ofList s, rest) := by
  rw [utf8_stringChars, List.cons_append, List.append_assoc]
  exact scanString_stringChars s rest

theorem parsed_stringChars {α : Type} {parse : String → Except ParseError α} {s : List Char} {value : α}
    (h : parse (String.ofList s) = .ok value) (rest : Bytes) :
    parsed parse (Text.utf8 (stringChars s) ++ rest) = .ok (value, rest) := by
  refine bind_eq_ok_iff.mpr ⟨_, text_stringChars s rest, ?_⟩
  simp only [h]
  rfl

end Recurrence.Json
