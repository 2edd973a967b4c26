import Recurrence.Field

/-!
# What can be wrong with a text

A `ParseError` is a cause with the places it was found at around it: the number of the element in
its list, the field of the expression, the line of the schedule.  `root` is the cause without the
places, and `message` the text shown to a user.
-/

namespace Recurrence

/-- The two words of an expression that have parts. -/
inductive Chunk where
  | date
  | time
deriving DecidableEq

/-- The name used in messages. -/
def Chunk.name : Chunk → String
  | date => "date"
  | time => "time"

/-- Why a text is no expression or no schedule. -/
inductive ParseError where
  | emptyExpression
  | tooManyChunks (count : Nat)
  | unconsumedChunk (chunk : String)
  | invalidValue (raw : String)
  | invalidRange (raw : String)
  | invalidBounds (first last : Nat)
  | invalidRepeat (raw : String)
  | outOfRange (value min max : Nat)
  | tooManyParts (chunk : Chunk) (count : Nat)
  | invalidWeekday (raw : String)
  | invalidWeekdayRange (raw : String)
  | unknownZone (raw : String)
  | atElement (index : Nat) (cause : ParseError)
  | inField (field : Field) (cause : ParseError)
  | inMember (line : Nat) (cause : ParseError)
deriving DecidableEq

namespace ParseError

/-- The text shown to a user. -/
def message : ParseError → String
  | emptyExpression => "empty expression"
  | tooManyChunks count => s!"too many chunks: expected at most 4, got {count}"
  | unconsumedChunk chunk => s!"invalid chunk {chunk}"
  | invalidValue raw => s!"invalid value '{raw}'"
  | invalidRange raw => s!"invalid range '{raw}'"
  | invalidBounds first last => s!"invalid bounds: {first} must be lower than {last}"
  | invalidRepeat raw => s!"invalid repeat '{raw}'"
  | outOfRange value min max => s!"value {value} outside of {min}..{max}"
  | tooManyParts chunk count =>
    s!"invalid {chunk.name} chunk: expected at most 3 parts, got {count}"
  | invalidWeekday raw => s!"invalid weekday '{raw}'"
  | invalidWeekdayRange raw => s!"invalid weekday range '{raw}'"
  | unknownZone raw => s!"unknown timezone '{raw}'"
  | atElement index cause => s!"parsing element {index}: " ++ cause.message
  | inField field cause => s!"parsing {field.name}: " ++ cause.message
  | inMember line cause => s!"parsing expression {line}: " ++ cause.message

/-- The cause, without the places it was found at. -/
def root : ParseError → ParseError
  | atElement _ cause => cause.root
  | inField _ cause => cause.root
  | inMember _ cause => cause.root
  | cause => cause

/-- The field in which the cause was found, if it belongs to one. -/
def field? : ParseError → Option Field
  | inField field _ => some field
  | atElement _ cause => cause.field?
  | inMember _ cause => cause.field?
  | _ => none

end ParseError

end Recurrence
