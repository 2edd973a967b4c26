import Recurrence.Ascending
import Recurrence.Field
import Recurrence.ParseError
import Recurrence.Text.Numeral

/-!
# Spans and series

A `Span` is one value or an inclusive range of values, and may be repeated at a fixed step; a
`Series` is a list of spans, and stands for the set of all their values.  `Series.values` lists
that set up to a bound, `Series.next?` finds the next value at or after a given one and starts
over at the least value when there is none.

The copies of a repeated span are made one after the other.  A copy that would start past
`maxNumber` is not made, and one that would end past it ends there.
-/

namespace Recurrence

/-- The value `first`, or the values from `first` to `last`; with a `step`, also every copy of
these shifted by a multiple of it. -/
structure Span where
  first : Nat
  last : Option Nat
  step : Option Nat
deriving DecidableEq

namespace Span

/-- One value. -/
def single (value : Nat) : Span :=
  ⟨value, none, none⟩

/-- The values from `first` to `last`, which has to be greater. -/
def range (first last : Nat) : Except ParseError Span :=
  if first < last then .ok ⟨first, some last, none⟩ else .error (.invalidBounds first last)

/-- The span with another step; a step of zero repeats nothing. -/
def every (span : Span) (step : Nat) : Span :=
  { span with step := if step = 0 then none else some step }

/-- The values up to `max` of one copy that starts at `first`. -/
def copyValues (first : Nat) (last : Option Nat) (max : Nat) : List Nat :=
  match last with
  | none => [first]
  | some last => List.range' first (min last max + 1 - first)

/-- The values up to `max` of the copy that starts at `first` and of all later ones. -/
def valuesFrom (step max first : Nat) (last : Option Nat) : List Nat :=
  if max < first then []
  else if _h : step = 0 ∨ Text.maxNumber < first + step then copyValues first last max
  else
    Ascending.union (copyValues first last max)
      (valuesFrom step max (first + step) (last.map fun l => min (l + step) Text.maxNumber))
termination_by max + 1 - first

/-- The values up to `max`, ascending. -/
def values (span : Span) (max : Nat) : List Nat :=
  valuesFrom (span.step.getD 0) max span.first span.last

/-- The first end that lies outside the bounds of the field is an error. -/
def checkBounds (field : Field) (span : Span) : Except ParseError Unit :=
  match (span.first :: span.last.toList).find? fun v => v < field.min || field.max < v with
  | some value => .error (.outOfRange value field.min field.max)
  | none => .ok ()

end Span

/-- A list of spans, for the set of all their values. -/
structure Series where
  spans : List Span
deriving DecidableEq

/-- The value that follows another one in a series. -/
structure Successor where
  value : Nat
  /-- The way from the value asked about; negative if the series starts over. -/
  diff : Int
deriving DecidableEq

namespace Successor

/-- The series has no value at or after the one asked about, so it starts over. -/
def wrapped (next : Successor) : Bool :=
  decide (next.diff < 0)

/-- The value lies after the one asked about. -/
def advanced (next : Successor) : Bool :=
  decide (0 < next.diff)

end Successor

namespace Series

/-- Every value of a field, as written by a star. -/
def all (field : Field) : Series :=
  ⟨[⟨field.min, some field.max, none⟩]⟩

/-- What a field stands for if an expression leaves it out. -/
def omitted (field : Field) : Series :=
  if field.matchesAllWhenOmitted then all field else ⟨[Span.single field.min]⟩

/-- The values up to `max`, ascending. -/
def values (series : Series) (max : Nat) : List Nat :=
  series.spans.foldr (fun span rest => Ascending.union (span.values max) rest) []

/-- The least value from `current` on, else the least value; none if no value is at most `max`. -/
def next? (series : Series) (current max : Nat) : Option Successor :=
  let values := series.values max
  (values.find? (current ≤ ·) <|> values.head?).map fun value => ⟨value, value - current⟩

end Series

end Recurrence
