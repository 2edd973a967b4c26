/-!
# The bytes of JSON

All marks of JSON are ASCII characters, so documents are taken apart byte by byte; only the
contents of strings are read as UTF-8.
-/

namespace Recurrence.Json.Byte

/-- The byte `"`. -/
@[match_pattern] abbrev quote : UInt8 := 0x22

/-- The byte `\`. -/
@[match_pattern] abbrev backslash : UInt8 := 0x5C

/-- The byte `/`. -/
@[match_pattern] abbrev slash : UInt8 := 0x2F

/-- The byte `,`. -/
@[match_pattern] abbrev comma : UInt8 := 0x2C

/-- The byte `:`. -/
@[match_pattern] abbrev colon : UInt8 := 0x3A

/-- The byte `.`. -/
@[match_pattern] abbrev point : UInt8 := 0x2E

/-- The byte `+`. -/
@[match_pattern] abbrev plus : UInt8 := 0x2B

/-- The byte `-`. -/
@[match_pattern] abbrev minus : UInt8 := 0x2D

/-- The opening bracket of a list. -/
@[match_pattern] abbrev openList : UInt8 := 0x5B

/-- The closing bracket of a list. -/
@[match_pattern] abbrev closeList : UInt8 := 0x5D

/-- The opening brace of an object. -/
@[match_pattern] abbrev openObject : UInt8 := 0x7B

/-- The closing brace of an object. -/
@[match_pattern] abbrev closeObject : UInt8 := 0x7D

/-- The letter `b`. -/
@[match_pattern] abbrev letterB : UInt8 := 0x62

/-- The letter `e`. -/
@[match_pattern] abbrev letterE : UInt8 := 0x65

/-- The letter `E`. -/
@[match_pattern] abbrev upperE : UInt8 := 0x45

/-- The letter `f`. -/
@[match_pattern] abbrev letterF : UInt8 := 0x66

/-- The letter `n`. -/
@[match_pattern] abbrev letterN : UInt8 := 0x6E

/-- The letter `r`. -/
@[match_pattern] abbrev letterR : UInt8 := 0x72

/-- The letter `t`. -/
@[match_pattern] abbrev letterT : UInt8 := 0x74

/-- The letter `u`. -/
@[match_pattern] abbrev letterU : UInt8 := 0x75

/-- Whether a byte may stand between the tokens of a document. -/
def isBlank (b : UInt8) : Bool :=
  b == 0x20 || b == 0x0A || b == 0x09 || b == 0x0D

/-- Whether a byte is a decimal digit. -/
def isDigit (b : UInt8) : Bool :=
  0x30 ≤ b && b ≤ 0x39

/-- The value of a decimal digit. -/
def digitValue (b : UInt8) : Nat :=
  b.toNat - 0x30

/-- Whether a byte may not stand in a string. -/
def isControl (b : UInt8) : Bool :=
  b < 0x20

/-- The value of a hexadecimal digit. -/
def hexValue? (b : UInt8) : Option Nat :=
  if isDigit b then some (b.toNat - 0x30)
  else if 0x61 ≤ b && b ≤ 0x66 then some (b.toNat - 0x61 + 10)
  else if 0x41 ≤ b && b ≤ 0x46 then some (b.toNat - 0x41 + 10)
  else none

end Recurrence.Json.Byte
