import Canopen.Number.Power
/-!
# Binary floating-point patterns

The interchange formats of IEEE 754 as bit patterns: what a pattern denotes, the pattern nearest to
a quotient of whole numbers, and the conversion between formats. All arithmetic is on whole numbers,
so that nothing is left to a machine's floating-point unit.
-/
namespace Canopen.Number

/-- The quotient of two natural numbers rounded to the nearest, a half to the even neighbour. -/
def divideHalfEven (n d : Nat) : Nat :=
  let q := n / d
  let r := n % d
  if 2 * r < d then q else if d < 2 * r then q + 1 else q + q % 2

/-- The largest `k` with `2 ^ k ≤ n / d`, for positive numbers. -/
def binaryOrder (n d : Nat) : Int :=
  let k : Int := (n.log2 : Int) - d.log2
  if d * 2 ^ k.toNat ≤ n * 2 ^ (-k).toNat then k else k - 1

/-- An interchange format, by the number of its fraction bits and of its exponent bits. -/
structure Format where
  fractionBits : Nat
  exponentBits : Nat
  deriving DecidableEq, Repr

namespace Format

def single : Format := ⟨23, 8⟩

def double : Format := ⟨52, 11⟩

def signWeight (f : Format) : Nat := 2 ^ (f.fractionBits + f.exponentBits)

def infinity (f : Format) : Nat := (2 ^ f.exponentBits - 1) * 2 ^ f.fractionBits

theorem infinity_add (f : Format) : f.infinity + 2 ^ f.fractionBits = f.signWeight := by
  have hpos := Nat.two_pow_pos f.exponentBits
  rw [infinity, signWeight, ← Nat.succ_mul, Nat.succ_eq_add_one, Nat.sub_add_cancel hpos, Nat.pow_add,
    Nat.mul_comm]

def largest (f : Format) : Nat := f.infinity - 1

/-- The fraction bit that marks a quiet not-a-number. -/
def quietBit (f : Format) : Nat := 2 ^ (f.fractionBits - 1)

/-- The exponent of the last place of the smallest numbers. -/
def minExponent (f : Format) : Int := 2 - 2 ^ (f.exponentBits - 1) - f.fractionBits

theorem minExponent_single : single.minExponent = -149 := rfl

theorem minExponent_double : double.minExponent = -1074 := rfl

end Format

/-- What a pattern denotes; a finite number is `significand * 2 ^ exponent`. -/
inductive Denotation where
  | nan
  | infinite (negative : Bool)
  | finite (negative : Bool) (significand : Nat) (exponent : Int)
  deriving DecidableEq, Repr

namespace Format

def isNegative (f : Format) (pattern : Nat) : Bool := f.signWeight ≤ pattern

/-- The pattern without its sign. -/
def magnitude (f : Format) (pattern : Nat) : Nat := pattern % f.signWeight

def denote (f : Format) (pattern : Nat) : Denotation :=
  let negative := f.isNegative pattern
  let magnitude := f.magnitude pattern
  let field := magnitude / 2 ^ f.fractionBits
  let fraction := magnitude % 2 ^ f.fractionBits
  if magnitude = f.infinity then .infinite negative
  else if f.infinity < magnitude then .nan
  else if field = 0 then .finite negative fraction f.minExponent
  else .finite negative (2 ^ f.fractionBits + fraction) (f.minExponent + field - 1)

/-- The pattern nearest to `n / d`, a half to the even neighbour. The pattern of a number counts the
representable numbers below it, so a significand that rounds up to the next power of two carries
into the exponent by itself. -/
def ofQuotient (f : Format) (n d : Nat) : Nat :=
  if n = 0 then 0
  else
    let exponent := max f.minExponent (binaryOrder n d - f.fractionBits)
    let significand := divideHalfEven (n * 2 ^ (-exponent).toNat) (d * 2 ^ exponent.toNat)
    min f.infinity ((exponent - f.minExponent).toNat * 2 ^ f.fractionBits + significand)

theorem ofQuotient_le (f : Format) (n d : Nat) : f.ofQuotient n d ≤ f.infinity := by
  unfold ofQuotient
  split
  · exact Nat.zero_le _
  · exact Nat.min_le_left ..

def withSign (f : Format) (negative : Bool) (magnitude : Nat) : Nat :=
  if negative then f.signWeight + magnitude else magnitude

theorem magnitude_withSign {f : Format} {m : Nat} (h : m < f.signWeight) (negative : Bool) :
    f.magnitude (f.withSign negative m) = m := by
  cases negative <;> simp [magnitude, withSign, Nat.mod_eq_of_lt h]

/-- The nearest pattern of another format. A not-a-number stays one: it becomes quiet and keeps the
leading bits of its fraction. -/
def convert (source target : Format) (pattern : Nat) : Nat :=
  let negative := source.isNegative pattern
  match source.denote pattern with
  | .nan =>
    let fraction := pattern % 2 ^ source.fractionBits
    let moved :=
      fraction * 2 ^ (target.fractionBits - source.fractionBits)
        / 2 ^ (source.fractionBits - target.fractionBits)
    target.withSign negative (target.infinity + (target.quietBit ||| moved))
  | .infinite _ => target.withSign negative target.infinity
  | .finite _ significand exponent =>
    target.withSign negative
      (target.ofQuotient (significand * 2 ^ exponent.toNat) (2 ^ (-exponent).toNat))

end Format

/-- A number of the 64-bit format, by its pattern. Two of them are equal when their patterns are. -/
structure Binary64 where
  pattern : UInt64
  deriving DecidableEq, Repr, Inhabited

namespace Binary64

def denote (x : Binary64) : Denotation := Format.double.denote x.pattern.toNat

def isNaN (x : Binary64) : Bool := x.denote == .nan

def isFinite (x : Binary64) : Bool := Format.double.magnitude x.pattern.toNat < Format.double.infinity

/-- The nearest pattern of the 32-bit format. -/
def narrow (x : Binary64) : UInt32 :=
  UInt32.ofNat (Format.convert .double .single x.pattern.toNat)

/-- The same number, from a pattern of the 32-bit format. -/
def widen (pattern : UInt32) : Binary64 :=
  ⟨UInt64.ofNat (Format.convert .single .double pattern.toNat)⟩

end Binary64

end Canopen.Number
