import Recurrence.Decimal.Shortest
import Recurrence.ParseError
import Recurrence.Text.Numeral
import Recurrence.Text.Quoted
import Recurrence.Text.Utf8

/-!
# What can be wrong with a JSON document

A document is read from left to right, and reading stops at the first fault.  Either the text ends
too early, or it is no JSON, or it is JSON of another shape than the one wanted.
-/

namespace Recurrence.Json

/-- What a document was in the middle of. -/
inductive Part where
  | list
  | object
  | string
  | value
deriving DecidableEq

/-- The name used in messages. -/
def Part.name : Part → String
  | list => "a list"
  | object => "an object"
  | string => "a string"
  | value => "a value"

/-- Why a text is no JSON. -/
inductive Malformation where
  | expectedColon
  | expectedListCommaOrEnd
  | expectedObjectCommaOrEnd
  | expectedIdent
  | expectedValue
  | invalidEscape
  | invalidNumber
  | numberOutOfRange
  | invalidCodePoint
  | controlCharacter
  | keyMustBeString
  | loneSurrogate
  | trailingComma
  | trailingCharacters
  | unfinishedEscape
deriving DecidableEq

/-- The text shown to a user. -/
def Malformation.message : Malformation → String
  | expectedColon => "expected `:`"
  | expectedListCommaOrEnd => "expected `,` or `]`"
  | expectedObjectCommaOrEnd => "expected `,` or `\x7d`"
  | expectedIdent => "expected ident"
  | expectedValue => "expected value"
  | invalidEscape => "invalid escape"
  | invalidNumber => "invalid number"
  | numberOutOfRange => "number out of range"
  | invalidCodePoint => "invalid unicode code point"
  | controlCharacter => "control character (\\u0000-\\u001F) found while parsing a string"
  | keyMustBeString => "key must be a string"
  | loneSurrogate => "lone leading surrogate in hex escape"
  | trailingComma => "trailing comma"
  | trailingCharacters => "trailing characters"
  | unfinishedEscape => "unexpected end of hex escape"

/-- A number of a document: a whole one if it has neither fraction nor exponent and fits 64 bits. -/
inductive Number where
  | whole (value : Int)
  | floating (value : Float)

/-- A value of a document, as far as it is looked at if it has the wrong type. -/
inductive Found where
  | null
  | boolean (value : Bool)
  | number (value : Number)
  | string (text : String)
  | sequence
  | map

/-- A floating point number by its fewest digits: positional from `0.00001` up to below `10 ^ 16`,
with a signed exponent outside of that, and in any case with a fraction or an exponent. -/
def floatChars (value : Float) : List Char :=
  let bits := value.toBits
  let sign := if bits.toNat < Decimal.signBit then [] else ['-']
  if bits.toNat % Decimal.signBit = 0 then sign ++ ['0', '.', '0']
  else
    let decimal := Decimal.shortest bits
    let digits := Text.digits decimal.digits
    let length : Int := digits.length
    let point := length + decimal.exponent
    sign ++
      if 0 ≤ decimal.exponent ∧ point ≤ 16 then
        digits ++ List.replicate decimal.exponent.toNat '0' ++ ['.', '0']
      else if 0 < point ∧ point ≤ 16 then
        digits.take point.toNat ++ '.' :: digits.drop point.toNat
      else if -5 < point ∧ point ≤ 0 then
        '0' :: '.' :: List.replicate (-point).toNat '0' ++ digits
      else
        digits.take 1 ++ (if digits.length = 1 then [] else '.' :: digits.drop 1) ++
          'e' :: (if point ≤ 0 then '-' else '+') :: Text.digits (point - 1).natAbs

/-- The text shown to a user. -/
def Number.describe : Number → String
  | whole value => s!"integer `{value}`"
  | floating value => "floating point `" ++ String.ofList (floatChars value) ++ "`"

/-- The text shown to a user. -/
def Found.describe : Found → String
  | null => "null"
  | boolean value => s!"boolean `{value}`"
  | number value => value.describe
  | string text => "string " ++ Text.quoted text
  | sequence => "sequence"
  | map => "map"

/-- Why a document cannot be read. -/
inductive Cause where
  | ended (part : Part)
  | malformed (malformation : Malformation)
  | wrongType (found : Found) (expected : String)
  | wrongValue (found : Found) (expected : String)
  | wrongLength (length : Nat) (expected : String)
  | missingField (name : String)
  | repeatedField (name : String)
  | rejected (cause : ParseError)

/-- The three kinds of causes. -/
inductive Category where
  | ended
  | malformed
  | unfit
deriving DecidableEq

namespace Cause

/-- The kind of a cause. -/
def category : Cause → Category
  | ended _ => .ended
  | malformed _ => .malformed
  | _ => .unfit

/-- The text shown to a user. -/
def message : Cause → String
  | ended part => s!"EOF while parsing {part.name}"
  | malformed malformation => malformation.message
  | wrongType found expected => s!"invalid type: {found.describe}, expected {expected}"
  | wrongValue found expected => s!"invalid value: {found.describe}, expected {expected}"
  | wrongLength length expected => s!"invalid length {length}, expected {expected}"
  | missingField name => s!"missing field `{name}`"
  | repeatedField name => s!"duplicate field `{name}`"
  | rejected cause => cause.message

end Cause

/-- A cause, and the number of bytes that had not been looked at when it was noticed. -/
structure Fault where
  cause : Cause
  unread : Nat

/-- A cause and the place in the document where it was noticed: the line, and the number of bytes
of that line that had been looked at. -/
structure Error where
  cause : Cause
  line : Nat
  column : Nat

namespace Error

/-- The place of a fault in a document. -/
def ofFault (document : Bytes) (fault : Fault) : Error :=
  let seen := document.take (document.length - fault.unread)
  ⟨fault.cause, seen.count 10 + 1, (seen.reverse.takeWhile (· ≠ 10)).length⟩

/-- The text shown to a user, with the place. -/
def message (error : Error) : String :=
  error.cause.message ++ s!" at line {error.line} column {error.column}"

end Error

end Recurrence.Json
