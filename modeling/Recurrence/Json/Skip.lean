import Recurrence.Json.Scan

/-!
# Passing over a value

A value under a key that nobody asks for is passed over, but it has to be JSON.  The lists and
objects that are open are kept on a stack, the innermost first.
-/

namespace Recurrence.Json

open Byte

/-- A list or an object that has not been closed yet. -/
inductive Frame where
  | list
  | object

namespace Frame

/-- The byte that closes it. -/
def close : Frame → UInt8
  | list => closeList
  | object => closeObject

/-- The cause if the document ends in it. -/
def ended : Frame → Cause
  | list => .ended .list
  | object => .ended .object

/-- The cause if something else than a comma or the closing byte follows a member. -/
def unclosed : Frame → Cause
  | list => .malformed .expectedListCommaOrEnd
  | object => .malformed .expectedObjectCommaOrEnd

/-- Passes over what precedes a value: nothing in a list, the key and a colon in an object. -/
def skipLead (frame : Frame) (s : Bytes) : Except Fault Bytes :=
  match frame with
  | list => .ok s
  | object =>
    match skipBlanks s with
    | [] => faultAt (.ended .object) []
    | quote :: rest => do
      let rest ← skipString rest
      match skipBlanks rest with
      | [] => faultAt (.ended .object) []
      | colon :: rest => return rest
      | rest => faultAt (.malformed .expectedColon) rest
    | rest => faultAt (.malformed .keyMustBeString) rest

end Frame

/-- What is to be passed over next. -/
inductive Place where
  /-- A value. -/
  | value
  /-- The first member of the innermost frame, or its end. -/
  | first
  /-- What follows a value. -/
  | next

/-- Passes over a value that is no list and no object, given its first byte. -/
def skipScalar (s : Bytes) : Except Fault Bytes :=
  match s with
  | letterN :: rest => scanLetters restOfNull rest
  | letterT :: rest => scanLetters restOfTrue rest
  | letterF :: rest => scanLetters restOfFalse rest
  | minus :: rest => skipNumber rest
  | quote :: rest => skipString rest
  | b :: rest =>
    if isDigit b then skipNumber (b :: rest) else faultAt (.malformed .expectedValue) (b :: rest)
  | [] => faultAt (.ended .value) []

/-- Passes over what is left of a value.  Of two steps at least one reads a byte, so twice the
number of bytes and two more are steps enough. -/
def skipSteps : Nat → Place → List Frame → Bytes → Except Fault Bytes
  | 0, _, _, s => faultAt (.ended .value) s
  | steps + 1, .value, frames, s =>
    match skipBlanks s with
    | [] => faultAt (.ended .value) []
    | openList :: rest => skipSteps steps .first (.list :: frames) rest
    | openObject :: rest => skipSteps steps .first (.object :: frames) rest
    | s => do skipSteps steps .next frames (← skipScalar s)
  | _ + 1, .first, [], s => .ok s
  | steps + 1, .first, frame :: frames, s =>
    match skipBlanks s with
    | [] => faultAt frame.ended []
    | b :: rest =>
      if b = frame.close then skipSteps steps .next frames rest
      else do skipSteps steps .value (frame :: frames) (← frame.skipLead (b :: rest))
  | _ + 1, .next, [], s => .ok s
  | steps + 1, .next, frame :: frames, s =>
    match skipBlanks s with
    | [] => faultAt frame.ended []
    | b :: rest =>
      if b = comma then do skipSteps steps .value (frame :: frames) (← frame.skipLead rest)
      else if b = frame.close then skipSteps steps .next frames rest
      else faultAt frame.unclosed (b :: rest)

/-- Passes over a value. -/
def skipValue (s : Bytes) : Except Fault Bytes :=
  skipSteps (2 * s.length + 2) .value [] s

end Recurrence.Json
