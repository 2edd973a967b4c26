import Recurrence.Text.Shapeless

/-!
# Quoted text

A text between double quotes, written so that each of its characters can be seen: backslash and
double quote have a backslash in front, a few control characters have a letter, and every other
character without a shape of its own is written by its number.  An apostrophe needs no backslash.
-/

namespace Recurrence.Text

/-- A character inside quotes. -/
def quotedChar (c : Char) : List Char :=
  match c with
  | '\x00' => ['\\', '0']
  | '\t' => ['\\', 't']
  | '\r' => ['\\', 'r']
  | '\n' => ['\\', 'n']
  | '\\' => ['\\', '\\']
  | '"' => ['\\', '"']
  | c =>
    if isShapeless c then '\\' :: 'u' :: '\x7b' :: Nat.toDigits 16 c.toNat ++ ['\x7d'] else [c]

/-- A text in quotes. -/
def quoted (s : String) : String :=
  String.ofList ('"' :: s.toList.flatMap quotedChar ++ ['"'])

end Recurrence.Text
