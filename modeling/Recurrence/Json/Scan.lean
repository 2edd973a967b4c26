import Recurrence.Json.Byte
import Recurrence.Json.Fault

/-!
# The tokens of JSON

A scanner takes a token off the front of a document and gives what it stands for and the rest.  A
byte that shows that something is wrong is sometimes still to be read and sometimes read already;
`faultAt` and `faultBefore` tell the two apart, for the place that is reported.
-/

namespace Recurrence.Json

open Byte

/-- A reader of the front of a document. -/
abbrev Scanner (α : Type) := Bytes → Except Fault (α × Bytes)

/-- A fault noticed by looking at the next byte. -/
def faultAt {α : Type} (cause : Cause) (s : Bytes) : Except Fault α :=
  .error ⟨cause, s.tail.length⟩

/-- A fault noticed before looking at the next byte. -/
def faultBefore {α : Type} (cause : Cause) (s : Bytes) : Except Fault α :=
  .error ⟨cause, s.length⟩

/-- The document without the blanks at its front. -/
def skipBlanks (s : Bytes) : Bytes :=
  s.dropWhile isBlank

/-- Reads the remaining letters of a name. -/
def scanLetters : List UInt8 → Bytes → Except Fault Bytes
  | [], s => .ok s
  | _ :: _, [] => faultBefore (.ended .value) []
  | letter :: letters, b :: s =>
    if b = letter then scanLetters letters s else faultBefore (.malformed .expectedIdent) s

/-- The letters of `null` after the first one. -/
def restOfNull : List UInt8 := [letterU, 0x6C, 0x6C]

/-- The letters of `true` after the first one. -/
def restOfTrue : List UInt8 := [letterR, letterU, letterE]

/-- The letters of `false` after the first one. -/
def restOfFalse : List UInt8 := [0x61, 0x6C, 0x73, letterE]

/-! ### Strings -/

/-- Reads the four digits of an escape. -/
def scanHex (s : Bytes) : Except Fault (Nat × Bytes) :=
  match s with
  | a :: b :: c :: d :: rest =>
    match hexValue? a, hexValue? b, hexValue? c, hexValue? d with
    | some a, some b, some c, some d => .ok (((a * 16 + b) * 16 + c) * 16 + d, rest)
    | _, _, _, _ => faultBefore (.malformed .invalidEscape) rest
  | _ => faultBefore (.ended .string) []

/-- Reads the second half of a pair of surrogates. -/
def scanTrailing (leading : Nat) (s : Bytes) : Except Fault (Bytes × Bytes) :=
  match s with
  | [] => faultBefore (.ended .string) []
  | backslash :: [] => faultBefore (.ended .string) []
  | backslash :: letterU :: rest => do
    let (trailing, rest) ← scanHex rest
    if trailing < 0xDC00 ∨ 0xDFFF < trailing then
      faultBefore (.malformed .loneSurrogate) rest
    else
      let code := (leading - 0xD800) * 1024 + (trailing - 0xDC00) + 0x10000
      return (String.utf8EncodeChar (Char.ofNat code), rest)
  | backslash :: _ :: rest => faultBefore (.malformed .unfinishedEscape) rest
  | _ :: rest => faultBefore (.malformed .unfinishedEscape) rest

/-- Reads a character given by its number. -/
def scanCodePoint (s : Bytes) : Except Fault (Bytes × Bytes) := do
  let (code, rest) ← scanHex s
  if 0xDC00 ≤ code ∧ code ≤ 0xDFFF then faultBefore (.malformed .loneSurrogate) rest
  else if 0xD800 ≤ code ∧ code ≤ 0xDBFF then scanTrailing code rest
  else return (String.utf8EncodeChar (Char.ofNat code), rest)

/-- Reads what follows a backslash, and gives the bytes it stands for. -/
def scanEscape (s : Bytes) : Except Fault (Bytes × Bytes) :=
  match s with
  | [] => faultBefore (.ended .string) []
  | quote :: rest => .ok ([quote], rest)
  | backslash :: rest => .ok ([backslash], rest)
  | slash :: rest => .ok ([slash], rest)
  | letterB :: rest => .ok ([0x08], rest)
  | letterF :: rest => .ok ([0x0C], rest)
  | letterN :: rest => .ok ([0x0A], rest)
  | letterR :: rest => .ok ([0x0D], rest)
  | letterT :: rest => .ok ([0x09], rest)
  | letterU :: rest => scanCodePoint rest
  | _ :: rest => faultBefore (.malformed .invalidEscape) rest

/-- Passes over what follows a backslash; a number need not be that of a character. -/
def skipEscape (s : Bytes) : Except Fault (Bytes × Bytes) :=
  match s with
  | letterU :: rest => (scanHex rest).map fun (_, rest) => ([], rest)
  | s => scanEscape s

/-- Reads a string after its opening quote, as the bytes it stands for.  Every step reads a byte,
so there are at most as many steps as there are bytes. -/
def scanStringBytes (escape : Bytes → Except Fault (Bytes × Bytes)) :
    Nat → Bytes → Except Fault (Bytes × Bytes)
  | 0, _ => faultBefore (.ended .string) []
  | _ + 1, [] => faultBefore (.ended .string) []
  | _ + 1, quote :: rest => .ok ([], rest)
  | steps + 1, backslash :: rest => do
    let (bytes, rest) ← escape rest
    let (more, rest) ← scanStringBytes escape steps rest
    return (bytes ++ more, rest)
  | steps + 1, b :: rest =>
    if isControl b then faultBefore (.malformed .controlCharacter) rest
    else do
      let (more, rest) ← scanStringBytes escape steps rest
      return (b :: more, rest)

/-- Reads a string after its opening quote. -/
def scanString : Scanner String := fun s => do
  let (bytes, rest) ← scanStringBytes scanEscape s.length s
  match Text.ofUtf8? bytes with
  | some text => return (text, rest)
  | none => faultBefore (.malformed .invalidCodePoint) rest

/-- Passes over a string after its opening quote, whatever text it is. -/
def skipString (s : Bytes) : Except Fault Bytes :=
  (scanStringBytes skipEscape s.length s).map Prod.snd

/-! ### Numbers -/

/-- The largest number of 64 bits. -/
def maxWord : Nat := 18446744073709551615

/-- The size of the least negative number of 64 bits. -/
def maxNegative : Nat := 9223372036854775808

/-- Takes digits into a significand while it fits 64 bits, and counts them. -/
def absorb (significand : Nat) : List UInt8 → Nat × Nat
  | [] => (significand, 0)
  | digit :: digits =>
    let next := significand * 10 + digitValue digit
    if maxWord < next then (significand, 0)
    else
      let (significand, count) := absorb next digits
      (significand, count + 1)

/-- A power of ten. -/
def power (exponent : Nat) : Float :=
  Float.ofScientific 1 false exponent

/-- Divides by a power of ten, in steps that stay in the range of floating point numbers. -/
def divideByPower (value : Float) (exponent : Nat) : Float :=
  if _h : 308 < exponent then
    if value == 0.0 then value else divideByPower (value / power 308) (exponent - 308)
  else value / power exponent
termination_by exponent
decreasing_by omega

/-- The floating point number `significand * 10 ^ exponent`; none if it is too large. -/
def floatOfParts (significand : Nat) (exponent : Int) : Option Float :=
  let value := (UInt64.ofNat significand).toFloat
  if exponent < 0 then some (divideByPower value exponent.natAbs)
  else if 308 < exponent then if value == 0.0 then some value else none
  else
    let value := value * power exponent.toNat
    if value.isInf then none else some value

/-- Ends the reading of a floating point number. -/
def finishFloat (positive : Bool) (significand : Nat) (exponent : Int) (s : Bytes) :
    Except Fault (Number × Bytes) :=
  match floatOfParts significand exponent with
  | some value => .ok (.floating (if positive then value else -value), s)
  | none => faultAt (.malformed .numberOutOfRange) s

/-- The largest exponent that is read. -/
def maxExponent : Nat := 2147483647

/-- Takes the digits of an exponent; none if it becomes too large, with the rest from there. -/
def scanExponentDigits (exponent : Nat) : Bytes → Option Nat × Bytes
  | [] => (some exponent, [])
  | b :: s =>
    if isDigit b then
      let next := exponent * 10 + digitValue b
      if maxExponent < next then (none, s) else scanExponentDigits next s
    else (some exponent, b :: s)

/-- Reads an exponent after its letter. -/
def scanExponent (positive : Bool) (significand : Nat) (start : Int) (s : Bytes) :
    Except Fault (Number × Bytes) :=
  let (up, s) := match s with
    | plus :: s => (true, s)
    | minus :: s => (false, s)
    | s => (true, s)
  match s with
  | [] => faultBefore (.ended .value) []
  | b :: rest =>
    if isDigit b then
      match scanExponentDigits (digitValue b) rest with
      | (some exponent, rest) =>
        finishFloat positive significand (if up then start + exponent else start - exponent) rest
      | (none, rest) =>
        if significand ≠ 0 ∧ up then faultBefore (.malformed .numberOutOfRange) rest
        else .ok (.floating (if positive then 0.0 else -0.0), rest.dropWhile isDigit)
    else faultBefore (.malformed .invalidNumber) rest

/-- Reads a fraction after its point. -/
def scanFraction (positive : Bool) (significand : Nat) (start : Int) (s : Bytes) :
    Except Fault (Number × Bytes) :=
  let digits := s.takeWhile isDigit
  let rest := s.dropWhile isDigit
  if digits.isEmpty then
    if s.isEmpty then faultBefore (.ended .value) [] else faultAt (.malformed .invalidNumber) s
  else
    let (significand, count) := absorb significand digits
    let exponent := start - count
    match rest with
    | letterE :: rest => scanExponent positive significand exponent rest
    | upperE :: rest => scanExponent positive significand exponent rest
    | rest => finishFloat positive significand exponent rest

/-- The number without fraction and exponent; `-0` and what is below the numbers of 64 bits is
floating. -/
def wholeNumber (positive : Bool) (significand : Nat) : Number :=
  if positive then .whole significand
  else if significand = 0 ∨ maxNegative < significand then
    .floating (-(UInt64.ofNat significand).toFloat)
  else .whole (-significand)

/-- Reads a number after its sign. -/
def scanNumber (positive : Bool) : Scanner Number := fun s =>
  match s with
  | [] => faultBefore (.ended .value) []
  | b :: rest =>
    if isDigit b then
      let digits := s.takeWhile isDigit
      let after := s.dropWhile isDigit
      if digitValue b = 0 ∧ 1 < digits.length then faultAt (.malformed .invalidNumber) rest
      else
        let (significand, count) := absorb 0 digits
        let surplus : Int := digits.length - count
        match after with
        | point :: after => scanFraction positive significand surplus after
        | letterE :: after => scanExponent positive significand surplus after
        | upperE :: after => scanExponent positive significand surplus after
        | after =>
          if surplus = 0 then .ok (wholeNumber positive significand, after)
          else finishFloat positive significand surplus after
    else faultBefore (.malformed .invalidNumber) rest

/-- Passes over an exponent after its letter. -/
def skipExponent (s : Bytes) : Except Fault Bytes :=
  let s := match s with
    | plus :: s => s
    | minus :: s => s
    | s => s
  match s with
  | [] => faultBefore (.malformed .invalidNumber) []
  | b :: rest =>
    if isDigit b then .ok (rest.dropWhile isDigit)
    else faultBefore (.malformed .invalidNumber) rest

/-- Passes over a fraction after its point. -/
def skipFraction (s : Bytes) : Except Fault Bytes :=
  if (s.takeWhile isDigit).isEmpty then faultAt (.malformed .invalidNumber) s
  else
    match s.dropWhile isDigit with
    | letterE :: rest => skipExponent rest
    | upperE :: rest => skipExponent rest
    | rest => .ok rest

/-- Passes over a number after its sign, however large it is. -/
def skipNumber (s : Bytes) : Except Fault Bytes :=
  match s with
  | [] => faultBefore (.malformed .invalidNumber) []
  | b :: rest =>
    if isDigit b then
      if digitValue b = 0 ∧ (rest.head?.any isDigit) then faultAt (.malformed .invalidNumber) rest
      else
        match s.dropWhile isDigit with
        | point :: rest => skipFraction rest
        | letterE :: rest => skipExponent rest
        | upperE :: rest => skipExponent rest
        | rest => .ok rest
    else faultBefore (.malformed .invalidNumber) rest

end Recurrence.Json
