import Canopen.Number.Binary
/-!
# Shortest decimal digits

The decimal number with the fewest digits that lies in the interval of reals which round to a given
binary number, and of those the nearest. The decimal grids are tried from the coarsest on; on each
grid only the two neighbours of the number can lie in the interval and be nearest.
-/
namespace Canopen.Number

/-- Where a number goes that lies halfway between two decimal neighbours. -/
inductive TieRule where
  | up
  | even
  deriving DecidableEq, Repr

/-- A decimal number `digits * 10 ^ exponent`. -/
structure Decimal where
  digits : Nat
  exponent : Int
  deriving DecidableEq, Repr

/-- The reals that round to a binary number, as numerators over one denominator. The ends belong to
it when the significand is even. -/
structure RoundingInterval where
  low : Nat
  value : Nat
  high : Nat
  denominator : Nat
  closed : Bool
  deriving Repr

namespace RoundingInterval

/-- The interval of a positive number `significand * 2 ^ exponent`. Below a power of two the
neighbour is only half as far away. -/
def ofBinary (f : Format) (significand : Nat) (exponent : Int) : RoundingInterval :=
  let closeBelow := significand = 2 ^ f.fractionBits ∧ f.minExponent < exponent
  let shift := exponent - 2
  let scale := 2 ^ shift.toNat
  { low := (4 * significand - if closeBelow then 1 else 2) * scale
    value := 4 * significand * scale
    high := (4 * significand + 2) * scale
    denominator := 2 ^ (-shift).toNat
    closed := significand % 2 = 0 }

def holds (r : RoundingInterval) (digits : Nat) (exponent : Int) : Bool :=
  let number := digits * 10 ^ exponent.toNat * r.denominator
  let scale := 10 ^ (-exponent).toNat
  if r.closed then r.low * scale ≤ number && number ≤ r.high * scale
  else r.low * scale < number && number < r.high * scale

/-- The nearest neighbour of the value on the grid of the given exponent that lies in the
interval. -/
def onGrid? (r : RoundingInterval) (tie : TieRule) (exponent : Int) : Option Decimal :=
  let numerator := r.value * 10 ^ (-exponent).toNat
  let divisor := r.denominator * 10 ^ exponent.toNat
  let below := numerator / divisor
  let distance := 2 * (numerator % divisor)
  let preferAbove : Bool :=
    if distance = divisor then
      match tie with
      | .up => true
      | .even => below % 2 == 1
    else decide (divisor < distance)
  let first := if preferAbove then below + 1 else below
  let second := if preferAbove then below else below + 1
  if r.holds first exponent then some ⟨first, exponent⟩
  else if r.holds second exponent then some ⟨second, exponent⟩
  else none

/-- An exponent of ten above the value. -/
def topExponent (r : RoundingInterval) : Int :=
  (binaryOrder r.value r.denominator * 30103).fdiv 100000 + 2

/-- The first grid, from the coarsest on, with a number in the interval. Twenty grids below the top
are enough, since seventeen digits tell any two numbers of 64 bits apart. -/
def shortest (r : RoundingInterval) (tie : TieRule) : Decimal :=
  ((List.range 22).findSome? fun (i : Nat) => r.onGrid? tie (r.topExponent - i)).getD ⟨0, 0⟩

end RoundingInterval

/-- The shortest decimal number that reads back as the binary number
`significand * 2 ^ exponent`. -/
def shortest (f : Format) (tie : TieRule) (significand : Nat) (exponent : Int) : Decimal :=
  if significand = 0 then ⟨0, 0⟩
  else (RoundingInterval.ofBinary f significand exponent).shortest tie

end Canopen.Number
