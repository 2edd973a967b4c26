import Recurrence.Schedule

/-!
# Writing JSON documents

A string is written between quotes, with a backslash in front of quotes and backslashes and an
escape for each control character; everything else stands for itself.  The file of a schedule is
written over several lines, indented by two blanks a level.
-/

namespace Recurrence.Json

variable [ZoneDatabase]

/-- A character inside a string. -/
def escapeChar (c : Char) : List Char :=
  match c with
  | '"' => ['\\', '"']
  | '\\' => ['\\', '\\']
  | '\x08' => ['\\', 'b']
  | '\t' => ['\\', 't']
  | '\n' => ['\\', 'n']
  | '\x0c' => ['\\', 'f']
  | '\r' => ['\\', 'r']
  | c =>
    if c.toNat < 0x20 then
      ['\\', 'u', '0', '0', Nat.digitChar (c.toNat / 16), Nat.digitChar (c.toNat % 16)]
    else [c]

/-- The characters of a string. -/
def stringChars (s : List Char) : List Char :=
  '"' :: s.flatMap escapeChar ++ ['"']

/-- An expression as a document. -/
def ofExpression (e : Expression) : String :=
  String.ofList (stringChars e.chars)

/-- A schedule as a document. -/
def ofSchedule (schedule : Schedule) : String :=
  String.ofList (stringChars schedule.chars)

/-- The limit of a search as a document. -/
def ofLimit (limit : SearchLimit) : String :=
  "\x7b\"max_passes\":" ++ toString limit.maxPasses ++ "\x7d"

/-- The members of a schedule as a list over several lines. -/
def memberLines (members : List Expression) : List Char :=
  match members with
  | [] => "[]".toList
  | members =>
    "[\n    ".toList ++
      ",\n    ".toList.intercalate (members.map fun e => stringChars e.chars) ++ "\n  ]".toList

/-- The characters of the file of a schedule. -/
def snapshotChars (schedule : Schedule) : List Char :=
  "\x7b\n  \"expressions\": ".toList ++ memberLines schedule.members ++ "\n\x7d".toList

end Recurrence.Json
