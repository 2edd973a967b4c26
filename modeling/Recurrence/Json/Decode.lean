import Recurrence.Json.Skip
import Recurrence.Schedule

/-!
# Reading JSON documents

A decoder reads a value of a certain type off the front of a document.  An expression and a
schedule are strings with their text.  The limit of a search and the contents of a file are
records with one field: each is an object, in which unknown keys are passed over, or a list of the
fields in order.

`decode` reads a whole document, after which nothing but blanks may follow.
-/

namespace Recurrence.Json

open Byte

variable [ZoneDatabase]

/-! ### Values -/

/-- The fault of a value of the wrong type, whose first byte is known. -/
def wrongType {α : Type} (expected : String) (s : Bytes) : Except Fault α :=
  match s with
  | letterN :: rest => do
    let rest ← scanLetters restOfNull rest
    faultBefore (.wrongType .null expected) rest
  | letterT :: rest => do
    let rest ← scanLetters restOfTrue rest
    faultBefore (.wrongType (.boolean true) expected) rest
  | letterF :: rest => do
    let rest ← scanLetters restOfFalse rest
    faultBefore (.wrongType (.boolean false) expected) rest
  | minus :: rest => do
    let (number, rest) ← scanNumber false rest
    faultAt (.wrongType (.number number) expected) rest
  | quote :: rest => do
    let (text, rest) ← scanString rest
    faultBefore (.wrongType (.string text) expected) rest
  | openList :: rest => faultBefore (.wrongType .sequence expected) rest
  | openObject :: rest => faultBefore (.wrongType .map expected) rest
  | b :: rest =>
    if isDigit b then do
      let (number, rest) ← scanNumber true (b :: rest)
      faultAt (.wrongType (.number number) expected) rest
    else faultAt (.malformed .expectedValue) (b :: rest)
  | [] => faultAt (.ended .value) []

/-- Reads a string. -/
def text : Scanner String := fun s =>
  match skipBlanks s with
  | quote :: rest => scanString rest
  | s => wrongType "a string" s

/-- What a number of 32 bits is called in messages. -/
def numberName : String := "u32"

/-- Reads a number of 32 bits. -/
def number : Scanner Nat := fun s =>
  let convert (found : Number) (rest : Bytes) : Except Fault (Nat × Bytes) :=
    match found with
    | .whole value =>
      if 0 ≤ value ∧ value ≤ Text.maxNumber then .ok (value.toNat, rest)
      else faultAt (.wrongValue (.number found) numberName) rest
    | .floating _ => faultAt (.wrongType (.number found) numberName) rest
  match skipBlanks s with
  | minus :: rest => do
    let (found, rest) ← scanNumber false rest
    convert found rest
  | b :: rest =>
    if isDigit b then do
      let (found, rest) ← scanNumber true (b :: rest)
      convert found rest
    else wrongType numberName (b :: rest)
  | [] => faultAt (.ended .value) []

/-- Reads a string and then what it says. -/
def parsed {α : Type} (parse : String → Except ParseError α) : Scanner α := fun s => do
  let (raw, rest) ← text s
  match parse raw with
  | .ok value => return (value, rest)
  | .error cause => faultBefore (.rejected cause) rest

/-- Reads an expression. -/
def expression : Scanner Expression :=
  parsed Expression.parse

/-- Reads a schedule. -/
def schedule : Scanner Schedule :=
  parsed Schedule.parse

/-! ### Lists -/

/-- Moves to the next member of a list; `false` if there is none. -/
def nextElement (first : Bool) (s : Bytes) : Except Fault (Bool × Bytes) :=
  match skipBlanks s with
  | [] => faultAt (.ended .list) []
  | closeList :: rest => .ok (false, closeList :: rest)
  | b :: rest =>
    if first then .ok (true, b :: rest)
    else if b = comma then
      match skipBlanks rest with
      | [] => faultAt (.ended .value) []
      | closeList :: rest => faultAt (.malformed .trailingComma) (closeList :: rest)
      | rest => .ok (true, rest)
    else faultAt (.malformed .expectedListCommaOrEnd) (b :: rest)

/-- Reads the end of a list. -/
def endList (s : Bytes) : Except Fault Bytes :=
  match skipBlanks s with
  | [] => faultAt (.ended .list) []
  | closeList :: rest => .ok rest
  | comma :: rest =>
    match skipBlanks rest with
    | closeList :: rest => faultAt (.malformed .trailingComma) (closeList :: rest)
    | rest => faultAt (.malformed .trailingCharacters) rest
  | rest => faultAt (.malformed .trailingCharacters) rest

/-- Reads the members of a list and its end.  Each member has a byte at least. -/
def elements {α : Type} (element : Scanner α) : Nat → Bool → Scanner (List α)
  | 0, _ => fun s => faultAt (.ended .list) s
  | steps + 1, first => fun s => do
    let (more, s) ← nextElement first s
    if more then
      let (value, s) ← element s
      let (values, s) ← elements element steps false s
      return (value :: values, s)
    else
      return ([], ← endList s)

/-- Reads a list. -/
def list {α : Type} (element : Scanner α) : Scanner (List α) := fun s =>
  match skipBlanks s with
  | openList :: rest => elements element (rest.length + 1) true rest
  | s => wrongType "a sequence" s

/-! ### Records with one field -/

/-- A record with one field: how it is called, the name of the field, how its value is read, and
what becomes of the record if there is none in an object or in a list. -/
structure Layout (α : Type) where
  expected : String
  field : String
  value : Scanner α
  whenMissing : Except Cause α
  whenShort : Except Cause α

namespace Layout

/-- Moves to the next key of an object and past its opening quote; none if there is no more. -/
def nextKey (first : Bool) (s : Bytes) : Except Fault (Option Bytes × Bytes) :=
  match skipBlanks s with
  | [] => faultAt (.ended .object) []
  | closeObject :: rest => .ok (none, rest)
  | b :: rest =>
    if first then
      if b = quote then .ok (some rest, rest) else faultAt (.malformed .keyMustBeString) (b :: rest)
    else if b = comma then
      match skipBlanks rest with
      | [] => faultAt (.ended .value) []
      | quote :: rest => .ok (some rest, rest)
      | closeObject :: rest => faultAt (.malformed .trailingComma) (closeObject :: rest)
      | rest => faultAt (.malformed .keyMustBeString) rest
    else faultAt (.malformed .expectedObjectCommaOrEnd) (b :: rest)

/-- Reads the colon after a key. -/
def scanColon (s : Bytes) : Except Fault Bytes :=
  match skipBlanks s with
  | [] => faultAt (.ended .object) []
  | colon :: rest => .ok rest
  | rest => faultAt (.malformed .expectedColon) rest

variable {α : Type} (layout : Layout α)

/-- Takes the value that was found, or what stands for a missing one. -/
def finish (found : Option α) (missing : Except Cause α) (s : Bytes) : Except Fault α :=
  match found, missing with
  | some value, _ => .ok value
  | none, .ok value => .ok value
  | none, .error cause => faultBefore cause s

/-- Reads the members of an object and its end.  Each member has a byte at least. -/
def members : Nat → Bool → Option α → Scanner α
  | 0, _, _ => fun s => faultAt (.ended .object) s
  | steps + 1, first, found => fun s => do
    match ← nextKey first s with
    | (none, rest) => return (← finish found layout.whenMissing rest, rest)
    | (some rest, _) =>
      let (key, rest) ← scanString rest
      if key = layout.field then
        if found.isSome then faultBefore (.repeatedField layout.field) rest
        else
          let (value, rest) ← layout.value (← scanColon rest)
          members steps false (some value) rest
      else
        members steps false found (← skipValue (← scanColon rest))

/-- Reads the fields from a list. -/
def fields : Scanner α := fun s => do
  let (more, s) ← nextElement true s
  if more then
    let (value, s) ← layout.value s
    return (value, ← endList s)
  else
    return (← finish none layout.whenShort s, ← endList s)

/-- Reads a record. -/
def record : Scanner α := fun s =>
  match skipBlanks s with
  | openObject :: rest => layout.members (rest.length + 1) true none rest
  | openList :: rest => layout.fields rest
  | s => wrongType layout.expected s

end Layout

/-- The limit of a search; without its field it is the default one. -/
def limit : Layout SearchLimit where
  expected := "struct RolloverConfig"
  field := "max_passes"
  value := fun s => (number s).map fun (passes, rest) => (⟨passes⟩, rest)
  whenMissing := .ok .default
  whenShort := .ok .default

/-- The contents of a file: the members of a schedule. -/
def snapshot : Layout Schedule where
  expected := "struct ScheduleSnapshot"
  field := "expressions"
  value := fun s => (list expression s).map fun (members, rest) => (⟨members⟩, rest)
  whenMissing := .error (.missingField "expressions")
  whenShort := .error (.wrongLength 0 "struct ScheduleSnapshot with 1 element")

/-! ### Documents -/

/-- Reads a whole document. -/
def decode {α : Type} (scan : Scanner α) (document : Bytes) : Except Error α :=
  let result : Except Fault α := do
    let (value, rest) ← scan document
    match skipBlanks rest with
    | [] => return value
    | rest => faultAt (.malformed .trailingCharacters) rest
  result.mapError (.ofFault document)

end Recurrence.Json
