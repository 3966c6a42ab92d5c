import Canopen.Number.Grammar
import Canopen.Number.Shortest
/-!
# Decimal texts of binary numbers

Writing a binary number positionally or with an exponent, and reading a decimal text as the nearest
binary number.
-/
namespace Canopen.Number

open Canopen.Text

namespace Decimal

def digitText (d : Decimal) : List Char := Nat.toDigits 10 d.digits

/-- The number of places before the decimal point. -/
def pointPlace (d : Decimal) : Int := d.digitText.length + d.exponent

/-- The number without an exponent and without a fraction of zero. -/
def positional (d : Decimal) : List Char :=
  let digits := d.digitText
  let place := d.pointPlace
  if 0 ≤ d.exponent then digits ++ List.replicate d.exponent.toNat '0'
  else if 0 < place then digits.take place.toNat ++ '.' :: digits.drop place.toNat
  else '0' :: '.' :: List.replicate (-place).toNat '0' ++ digits

/-- The number with one digit before the point and a signed exponent. -/
def scientific (d : Decimal) : List Char :=
  let mantissa :=
    match d.digitText with
    | [] => []
    | [c] => [c]
    | c :: rest => c :: '.' :: rest
  let exponent := d.pointPlace - 1
  let sign := if exponent < 0 then '-' else '+'
  mantissa ++ 'e' :: sign :: Nat.toDigits 10 exponent.natAbs

/-- The number as JSON writes it: with a fraction, and with an exponent from 10^16 up and below
10^-5. -/
def jsonChars (d : Decimal) : List Char :=
  let place := d.pointPlace
  if d.digits = 0 then "0.0".toList
  else if place ≤ -5 || 16 < place then d.scientific
  else if 0 ≤ d.exponent then d.positional ++ ".0".toList
  else d.positional

end Decimal

namespace Format

/-- The text of a pattern: its shortest digits, positionally, with `inf` and `NaN` for the rest. A
not-a-number has no sign. -/
def text (f : Format) (pattern : Nat) : String :=
  let sign (negative : Bool) := if negative then "-" else ""
  match f.denote pattern with
  | .nan => "NaN"
  | .infinite negative => sign negative ++ "inf"
  | .finite negative significand exponent =>
    sign negative ++ String.ofList (shortest f .up significand exponent).positional

end Format

namespace Binary64

def text (x : Binary64) : String := Format.double.text x.pattern.toNat

/-- The text in JSON, which has none for infinities and for a not-a-number. -/
def jsonText? (x : Binary64) : Option String :=
  match x.denote with
  | .finite negative significand exponent =>
    some ((if negative then "-" else "") ++
      String.ofList (shortest .double .even significand exponent).jsonChars)
  | _ => none

end Binary64

/-- A decimal text taken apart: the digits before and after the point as one number, and the
exponent of its last digit. -/
def splitDecimal? (cs : List Char) : Option Decimal :=
  let whole := cs.takeWhile Char.isDigit
  let rest := cs.dropWhile Char.isDigit
  let (fraction, rest) :=
    match rest with
    | '.' :: tail => (tail.takeWhile Char.isDigit, tail.dropWhile Char.isDigit)
    | _ => ([], rest)
  if whole.isEmpty && fraction.isEmpty then none
  else
    match digitsValue? 10 0 (whole ++ fraction) with
    | none => none
    | some digits =>
      let places : Int := fraction.length
      match rest with
      | [] => some ⟨digits, -places⟩
      | e :: tail =>
        if e = 'e' || e = 'E' then
          (readInteger? tail).map fun v => ⟨digits, v - places⟩
        else none

/-- The pattern nearest to a decimal number. A number with its first digit far above the largest
finite number, or far below the smallest, is decided without its powers of ten. -/
def Format.ofDecimal (f : Format) (d : Decimal) : Nat :=
  if d.digits = 0 then 0
  else if 400 < d.pointPlace then f.infinity
  else if d.pointPlace < -400 then 0
  else f.ofQuotient (d.digits * 10 ^ d.exponent.toNat) (10 ^ (-d.exponent).toNat)

inductive FloatFault where
  | empty
  | invalid
  deriving DecidableEq, Repr

def FloatFault.message : FloatFault → String
  | .empty => "cannot parse float from empty string"
  | .invalid => "invalid float literal"

/-- The magnitude a text without a sign denotes: `inf`, `infinity` and `nan` in any case, or a
decimal number with an optional fraction and an optional exponent. -/
def Format.readMagnitude? (f : Format) (cs : List Char) : Option Nat :=
  match splitDecimal? cs with
  | some d => some (f.ofDecimal d)
  | none =>
    let name := String.ofList (cs.map Char.toLower)
    if name = "inf" || name = "infinity" then some f.infinity
    else if name = "nan" then some (f.infinity + f.quietBit)
    else none

/-- Reads a text with an optional sign as the nearest pattern. -/
def Format.read (f : Format) : List Char → Except FloatFault Nat
  | [] => .error .empty
  | c :: cs =>
    let result :=
      if c = '-' then (f.readMagnitude? cs).map (f.withSign true)
      else if c = '+' then f.readMagnitude? cs
      else f.readMagnitude? (c :: cs)
    match result with
    | some pattern => .ok pattern
    | none => .error .invalid

def Binary64.read (s : String) : Except FloatFault Binary64 :=
  match Format.double.read s.toList with
  | .ok pattern => .ok ⟨UInt64.ofNat pattern⟩
  | .error fault => .error fault

end Canopen.Number
