import Canopen.Json.Basic
/-!
# JSON numbers

The value of a number in JSON text. A whole number of 64 bits, with or without a sign, is kept as it
is. Any other number becomes a floating-point number: as many leading digits as fit into 64 bits are
taken as a whole number, which is then multiplied or divided by a power of ten, each step rounded.
The result can differ in its last place from the number nearest to the text. A number that is too
large is refused.
-/
namespace Canopen.Json

open Canopen.Number

def maxSignificand : Nat := 2 ^ 64 - 1

/-- Takes digits as long as the number of 64 bits can hold them; gives the number and the digits
that are left. -/
def takeSignificand : Nat → List Nat → Nat × List Nat
  | n, [] => (n, [])
  | n, d :: rest =>
    if maxSignificand < n * 10 + d then (n, d :: rest) else takeSignificand (n * 10 + d) rest

/-- The significand and the exponent of digits before and after the point. -/
def significand (whole fraction : List Nat) : Nat × Int :=
  let (n, droppedWhole) := takeSignificand 0 whole
  let (n, droppedFraction) := takeSignificand n fraction
  (n, (droppedWhole.length : Int) - ((fraction.length : Int) - droppedFraction.length))

/-- The product of two positive finite numbers, rounded. -/
def multiply (a b : Nat) : Nat :=
  match Format.double.denote a, Format.double.denote b with
  | .finite _ m e, .finite _ n k =>
    Format.double.ofQuotient (m * n * 2 ^ (e + k).toNat) (2 ^ (-(e + k)).toNat)
  | _, _ => Format.double.infinity

/-- The quotient of two positive finite numbers, rounded. -/
def divide (a b : Nat) : Nat :=
  match Format.double.denote a, Format.double.denote b with
  | .finite _ m e, .finite _ n k =>
    Format.double.ofQuotient (m * 2 ^ (e - k).toNat) (n * 2 ^ (k - e).toNat)
  | _, _ => 0

/-- The number nearest to a power of ten. -/
def powerOfTen (k : Nat) : Nat := Format.double.ofDecimal ⟨1, k⟩

/-- Scales a number by a power of ten. Below the smallest power it is divided by in several steps,
at most four of which matter: by then the number is zero. -/
def scale : Nat → Nat → Int → Option Nat
  | 0, _, _ => some 0
  | steps + 1, x, exponent =>
    if exponent.natAbs ≤ 308 then
      if 0 ≤ exponent then
        let product := multiply x (powerOfTen exponent.natAbs)
        if product = Format.double.infinity then none else some product
      else some (divide x (powerOfTen exponent.natAbs))
    else if x = 0 then some 0
    else if 0 ≤ exponent then none
    else scale steps (divide x (powerOfTen 308)) (exponent + 308)

def floatOfParts (negative : Bool) (n : Nat) (exponent : Int) : Option Json :=
  (scale 5 (Format.double.ofQuotient n 1) exponent).map fun magnitude =>
    .float ⟨UInt64.ofNat (Format.double.withSign negative magnitude)⟩

/-- The number that consists of the given digits; a fraction or an exponent makes it a
floating-point number, and so does a sign in front of zero. -/
def ofDigits (negative : Bool) (whole : List Nat) (fraction : Option (List Nat))
    (exponent : Option Int) : Option Json :=
  let (n, places) := significand whole (fraction.getD [])
  if fraction.isNone && exponent.isNone && places = 0 then
    if !negative then some (.int n)
    else if 0 < n && n ≤ 2 ^ 63 then some (.int (-(n : Int)))
    else floatOfParts true n 0
  else floatOfParts negative n (places + exponent.getD 0)

end Canopen.Json
