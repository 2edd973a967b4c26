/-!
# Text as bytes

Files and JSON documents are lists of bytes.  `Text.utf8` writes a text as bytes, and
`Text.ofUtf8?` reads it back; not every list of bytes is a text.  `Text.utf8Fault?` tells where
one stops being a text: a character is a first byte and up to three more, and the first byte
decides how many these are and where the next one has to lie.
-/

namespace Recurrence

/-- The contents of a file. -/
abbrev Bytes := List UInt8

/-- The character that is no character: the index of its first byte, and the number of bytes
before the wrong one, unless the bytes just end too early. -/
structure Utf8Fault where
  index : Nat
  length : Option Nat
deriving DecidableEq

/-- The text shown to a user. -/
def Utf8Fault.message (fault : Utf8Fault) : String :=
  match fault.length with
  | some length => s!"invalid utf-8 sequence of {length} bytes from index {fault.index}"
  | none => s!"incomplete utf-8 byte sequence from index {fault.index}"

/-- What a character still needs: a number of bytes, the first of which lies between two bounds. -/
structure Utf8Tail where
  owed : Nat
  low : UInt8
  high : UInt8

namespace Text

/-- The bytes of a text. -/
def utf8 (s : List Char) : Bytes :=
  s.flatMap String.utf8EncodeChar

/-- The text that some bytes stand for. -/
def ofUtf8? (bytes : Bytes) : Option String :=
  String.fromUTF8? ⟨bytes.toArray⟩

/-- What follows the first byte of a character. -/
def tailAfter? (b : UInt8) : Option Utf8Tail :=
  if b < 0x80 then some ⟨0, 0x80, 0xBF⟩
  else if b < 0xC2 then none
  else if b < 0xE0 then some ⟨1, 0x80, 0xBF⟩
  else if b = 0xE0 then some ⟨2, 0xA0, 0xBF⟩
  else if b = 0xED then some ⟨2, 0x80, 0x9F⟩
  else if b < 0xF0 then some ⟨2, 0x80, 0xBF⟩
  else if b = 0xF0 then some ⟨3, 0x90, 0xBF⟩
  else if b < 0xF4 then some ⟨3, 0x80, 0xBF⟩
  else if b = 0xF4 then some ⟨3, 0x80, 0x8F⟩
  else none

/-- The first fault in the rest of some bytes, after `seen` bytes of the character at `index`. -/
def utf8FaultFrom (index seen : Nat) (tail : Utf8Tail) : Bytes → Option Utf8Fault
  | [] => if tail.owed = 0 then none else some ⟨index, none⟩
  | b :: rest =>
    if tail.owed = 0 then
      match tailAfter? b with
      | some tail => utf8FaultFrom (index + seen) 1 tail rest
      | none => some ⟨index + seen, some 1⟩
    else if tail.low ≤ b ∧ b ≤ tail.high then
      utf8FaultFrom index (seen + 1) ⟨tail.owed - 1, 0x80, 0xBF⟩ rest
    else some ⟨index, some seen⟩

/-- The first fault in some bytes; none if they are a text. -/
def utf8Fault? (bytes : Bytes) : Option Utf8Fault :=
  utf8FaultFrom 0 0 ⟨0, 0x80, 0xBF⟩ bytes

end Text

end Recurrence
