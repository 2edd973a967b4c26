import Recurrence.Span.Basic
import Recurrence.Text.Split

/-!
# Series as text

A span is written `5`, `1..9`, `5/3` or `1..9/10`, with two digits at least for a value; a series
is a list of spans with commas between them.  Reading goes by position: the spans are read one by
one, and only then are their ends compared with the bounds of the field.
-/

namespace Recurrence

namespace Span

/-- A number that is a value. -/
def readValue (s : List Char) : Except ParseError Nat :=
  match Text.readNumber s with
  | some value => .ok value
  | none => .error (.invalidValue (String.ofList s))

/-- A span without its step, and the step; a step of zero is no step. -/
def readStep (s : List Char) : Except ParseError (List Char × Option Nat) :=
  match Text.cutAt '/' s with
  | none => .ok (s, none)
  | some (span, step) =>
    match Text.readNumber step with
    | some 0 => .ok (span, none)
    | some step => .ok (span, some step)
    | none => .error (.invalidRepeat (String.ofList step))

/-- Reads one value, with or without a step. -/
def readSingle (s : List Char) : Except ParseError Span := do
  let (value, step) ← readStep s
  let first ← readValue value
  return ⟨first, none, step⟩

/-- Reads a range of values, with or without a step. -/
def readRange (s : List Char) : Except ParseError Span := do
  let (bounds, step) ← readStep s
  match Text.splitDots bounds with
  | [lower, upper] =>
    let first ← readValue lower
    let last ← readValue upper
    let span ← range first last
    return { span with step }
  | _ => throw (.invalidRange (String.ofList s))

/-- Reads a span: a range if it has a pair of dots. -/
def read (s : List Char) : Except ParseError Span :=
  if Text.hasDots s then readRange s else readSingle s

/-- The characters of a span. -/
def chars (span : Span) : List Char :=
  Text.padded 2 span.first ++
    (match span.last with | some last => '.' :: '.' :: Text.padded 2 last | none => []) ++
    (match span.step with | some step => '/' :: Text.digits step | none => [])

/-- The text of a span. -/
def text (span : Span) : String :=
  String.ofList span.chars

end Span

/-- Reads every piece of a list; the first failure is reported with its position. -/
def readElements {α β : Type} (read : α → Except ParseError β) (index : Nat) :
    List α → Except ParseError (List β)
  | [] => .ok []
  | piece :: rest =>
    match read piece with
    | .error cause => .error (.atElement index cause)
    | .ok element => (readElements read (index + 1) rest).map (element :: ·)

namespace Series

/-- Reads a list of spans. -/
def read (s : List Char) : Except ParseError Series :=
  (readElements Span.read 0 (s.splitOn ',')).map Series.mk

/-- Reads a list of spans whose ends lie within the bounds of a field. -/
def readFor (field : Field) (s : List Char) : Except ParseError Series := do
  let series ← read s
  let _ ← readElements (Span.checkBounds field) 0 series.spans
  return series

/-- The characters of a series. -/
def chars (series : Series) : List Char :=
  [','].intercalate (series.spans.map Span.chars)

/-- The text of a series. -/
def text (series : Series) : String :=
  String.ofList series.chars

/-- The series that a text stands for. -/
def parse (s : String) : Except ParseError Series :=
  read s.toList

/-- The series that a text stands for in a field. -/
def parseFor (field : Field) (s : String) : Except ParseError Series :=
  readFor field s.toList

end Series

end Recurrence
