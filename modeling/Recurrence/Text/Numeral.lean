/-!
# Numerals

Numbers are those of 32 bits, `0 .. maxNumber`.  They are read from decimal digits with any number
of leading zeros and one optional sign, where a minus sign is only good in front of zero; indexes
and counts are read without a minus sign, up to 64 bits.
-/

namespace Recurrence.Text

/-- The largest number that a numeral may stand for. -/
def maxNumber : Nat := 4294967295

/-- The largest index or count that can be written. -/
def maxIndex : Nat := 18446744073709551615

/-- The value of one or more decimal digits. -/
def readDigits (s : List Char) : Option Nat :=
  if s ≠ [] ∧ s.all Char.isDigit then some (Nat.ofDigitChars 10 s 0) else none

/-- A number with an optional sign. -/
def readNumber (s : List Char) : Option Nat :=
  match s with
  | '-' :: digits => (readDigits digits).filter (· = 0)
  | '+' :: digits => (readDigits digits).filter (· ≤ maxNumber)
  | digits => (readDigits digits).filter (· ≤ maxNumber)

/-- An index or a count, with an optional plus sign. -/
def readIndex (s : List Char) : Option Nat :=
  match s with
  | '+' :: digits => (readDigits digits).filter (· ≤ maxIndex)
  | digits => (readDigits digits).filter (· ≤ maxIndex)

/-- The decimal digits of a number. -/
def digits (n : Nat) : List Char :=
  Nat.toDigits 10 n

/-- The decimal digits of a number, filled up with zeros to a width. -/
def padded (width n : Nat) : List Char :=
  List.replicate (width - (digits n).length) '0' ++ digits n

end Recurrence.Text
