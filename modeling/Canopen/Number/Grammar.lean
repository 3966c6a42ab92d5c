import Canopen.Number.Power
import Canopen.Text.Blank
import Canopen.Text.Hex
/-!
# Texts of whole numbers

One or more digits with an optional plus sign, in base ten or, after 0x, in base sixteen. A number
that does not fit below the given limit is refused; nothing wraps around.
-/
namespace Canopen.Number

open Canopen.Text

/-- The number a character stands for in the given base. -/
def digitValue? (base : Nat) (c : Char) : Option Nat :=
  (Hex.digitValue? c).filter (· < base)

/-- The number that digits stand for, most significant first, after those already read. -/
def digitsValue? (base : Nat) : Nat → List Char → Option Nat
  | n, [] => some n
  | n, c :: cs =>
    match digitValue? base c with
    | some d => digitsValue? base (n * base + d) cs
    | none => none

def readDigits? (base : Nat) : List Char → Option Nat
  | [] => none
  | cs => digitsValue? base 0 cs

theorem readDigits?_eq_some_iff {base n : Nat} {cs : List Char} :
    readDigits? base cs = some n ↔ cs ≠ [] ∧ digitsValue? base 0 cs = some n := by
  cases cs with
  | nil => simp [readDigits?]
  | cons c rest => simp [readDigits?]

def dropPlus : List Char → List Char
  | '+' :: cs => cs
  | cs => cs

/-- Digits with an optional plus sign, of a number below `limit`. -/
def readUnsigned? (base limit : Nat) (cs : List Char) : Option Nat :=
  (readDigits? base (dropPlus cs)).filter (· < limit)

def readInteger? (cs : List Char) : Option Int :=
  match cs with
  | '-' :: digits => (readDigits? 10 digits).map fun n => -(n : Int)
  | _ => (readDigits? 10 (dropPlus cs)).map fun n => (n : Int)

/-- A number in base sixteen after 0x or 0X, or else in base ten. -/
def readPrefixed? (limit : Nat) : List Char → Option Nat
  | '0' :: 'x' :: cs => readUnsigned? 16 limit cs
  | '0' :: 'X' :: cs => readUnsigned? 16 limit cs
  | cs => readUnsigned? 10 limit cs

/-- A number below 2^64 with blanks around it, in base sixteen after 0x and in base ten otherwise. -/
def readText? (s : String) : Option Nat := readPrefixed? (2 ^ 64) (trimChars s.toList)

end Canopen.Number
