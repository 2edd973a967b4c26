/-!
# The fewest digits of a floating point number

A finite number that is not zero stands for all the reals that round to it.  These form an
interval, from halfway to the neighbour below to halfway to the neighbour above, and its ends
belong to it if the significand is even.  `Decimal.shortest` looks for a decimal in that interval
on coarser grids first, so the one it finds has the fewest digits; of two on the same grid it
takes the nearer one.
-/

namespace Recurrence

/-- The number `digits * 10 ^ exponent`. -/
structure Decimal where
  digits : Nat
  exponent : Int
deriving DecidableEq

namespace Decimal

/-- A positive number `value * 2 ^ scale` and the ends of the interval that it stands for, on the
same scale. -/
structure Interval where
  lower : Nat
  value : Nat
  upper : Nat
  closed : Bool
  scale : Int

/-- The value of the bit of the sign. -/
def signBit : Nat := 9223372036854775808

/-- The value of the first bit of a significand, which is not written unless the number is very
small. -/
def hiddenBit : Nat := 4503599627370496

/-- The interval of the number with the given bits, whose sign is ignored. -/
def Interval.ofBits (bits : UInt64) : Interval :=
  let fraction := bits.toNat % hiddenBit
  let field := bits.toNat / hiddenBit % 2048
  let significand := if field = 0 then fraction else fraction + hiddenBit
  let narrow := fraction = 0 ∧ 1 < field
  { lower := 4 * significand - if narrow then 1 else 2
    value := 4 * significand
    upper := 4 * significand + 2
    closed := significand % 2 = 0
    scale := (max field 1 : Nat) - 1077 }

/-- The multiple of `10 ^ exponent` that lies in an interval and is the nearest to its value. -/
def onGrid (interval : Interval) (exponent : Int) : Option Nat :=
  let unit := Nat.pow 10 exponent.toNat * Nat.pow 2 (-interval.scale).toNat
  let factor := Nat.pow 10 (-exponent).toNat * Nat.pow 2 interval.scale.toNat
  let below := interval.value * factor / unit
  let fits (digits : Nat) : Bool :=
    0 < digits &&
      if interval.closed then
        interval.lower * factor ≤ digits * unit && digits * unit ≤ interval.upper * factor
      else interval.lower * factor < digits * unit && digits * unit < interval.upper * factor
  let nearerAbove := interval.value * factor * 2 > (2 * below + 1) * unit ∨
    interval.value * factor * 2 = (2 * below + 1) * unit ∧ below % 2 = 1
  match fits below, fits (below + 1) with
  | true, true => some (if nearerAbove then below + 1 else below)
  | true, false => some below
  | false, true => some (below + 1)
  | false, false => none

/-- Tries the grids from `10 ^ exponent` on to finer ones. -/
def search (interval : Interval) : Nat → Int → Option Decimal
  | 0, _ => none
  | grids + 1, exponent =>
    match onGrid interval exponent with
    | some digits => some ⟨digits, exponent⟩
    | none => search interval grids (exponent - 1)

/-- The decimal with the fewest digits that reads back as the number with the given bits. -/
def shortest (bits : UInt64) : Decimal :=
  (search (.ofBits bits) 640 309).getD ⟨0, 0⟩

end Decimal

end Recurrence
