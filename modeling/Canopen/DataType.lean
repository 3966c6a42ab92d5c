import Canopen.Number.Grammar
/-!
# Data types

The primitive types an object dictionary entry can hold: their names, sizes, ranges and CiA 301
codes. Strings have a fixed length in bytes, which belongs to the type; a domain has none.
-/
namespace Canopen

open Canopen.Text

inductive IntWidth where
  | w8
  | w16
  | w32
  | w64
  deriving DecidableEq, Repr

def IntWidth.bytes : IntWidth → Nat
  | .w8 => 1
  | .w16 => 2
  | .w32 => 4
  | .w64 => 8

def IntWidth.bits (w : IntWidth) : Nat := 8 * w.bytes

theorem IntWidth.bits_le (w : IntWidth) : w.bits ≤ 64 := by
  cases w <;> decide

theorem IntWidth.two_pow_bits (w : IntWidth) : 2 ^ w.bits = 256 ^ w.bytes := by
  cases w <;> rfl

/-- The highest bit counts as much as all patterns without it. -/
theorem IntWidth.two_pow_bits_eq (w : IntWidth) : 2 ^ w.bits = 2 * 2 ^ (w.bits - 1) := by
  cases w <;> rfl

theorem IntWidth.two_pow_le (w : IntWidth) : 2 ^ w.bits ≤ 2 ^ 64 :=
  Nat.pow_le_pow_right (by decide) w.bits_le

inductive DataType where
  | boolean
  | signed (width : IntWidth)
  | unsigned (width : IntWidth)
  | real32
  | real64
  | visibleString (length : Nat)
  | octetString (length : Nat)
  | domain
  deriving DecidableEq, Repr

namespace DataType

/-- The number of bytes of a value, which a domain leaves open. -/
def byteSize? : DataType → Option Nat
  | boolean => some 1
  | signed w | unsigned w => some w.bytes
  | real32 => some 4
  | real64 => some 8
  | visibleString length | octetString length => some length
  | domain => none

def isSigned : DataType → Bool
  | signed _ => true
  | _ => false

def intWidth? : DataType → Option IntWidth
  | signed w | unsigned w => some w
  | _ => none

theorem byteSize?_of_intWidth? {t : DataType} {w : IntWidth} (h : t.intWidth? = some w) :
    t.byteSize? = some w.bytes := by
  cases t <;> cases h <;> rfl

def isInteger (t : DataType) : Bool := t.intWidth?.isSome

def isFloat : DataType → Bool
  | real32 | real64 => true
  | _ => false

/-- The least and the greatest value of an integer type. -/
def intRange? : DataType → Option (Int × Int)
  | signed w => some (-(2 ^ (w.bits - 1)), 2 ^ (w.bits - 1) - 1)
  | unsigned w => some (0, 2 ^ w.bits - 1)
  | _ => none

theorem exists_intRange_of_intWidth {t : DataType} {w : IntWidth} (h : t.intWidth? = some w) :
    ∃ low high, t.intRange? = some (low, high) := by
  cases t <;> cases h <;> exact ⟨_, _, rfl⟩

theorem exists_intWidth_of_intRange {t : DataType} {low high : Int}
    (h : t.intRange? = some (low, high)) : ∃ w, t.intWidth? = some w := by
  cases t <;> cases h <;> exact ⟨_, rfl⟩

/-- The number of bits that bit fields can use. -/
def bitWidth? (t : DataType) : Option Nat := t.intWidth?.map IntWidth.bits

/-- The data type code of CiA 301. -/
def code : DataType → UInt8
  | boolean => 0x01
  | signed .w8 => 0x02
  | signed .w16 => 0x03
  | signed .w32 => 0x04
  | unsigned .w8 => 0x05
  | unsigned .w16 => 0x06
  | unsigned .w32 => 0x07
  | real32 => 0x08
  | visibleString _ => 0x09
  | octetString _ => 0x0A
  | domain => 0x0F
  | real64 => 0x11
  | signed .w64 => 0x15
  | unsigned .w64 => 0x1B

/-- The type of a code. The codes of strings need the length, which they do not carry. -/
def ofCode? (code : UInt8) (length : Option Nat) : Option DataType :=
  match code.toNat with
  | 0x01 => some boolean
  | 0x02 => some (signed .w8)
  | 0x03 => some (signed .w16)
  | 0x04 => some (signed .w32)
  | 0x05 => some (unsigned .w8)
  | 0x06 => some (unsigned .w16)
  | 0x07 => some (unsigned .w32)
  | 0x08 => some real32
  | 0x09 => length.map visibleString
  | 0x0A => length.map octetString
  | 0x0F => some domain
  | 0x11 => some real64
  | 0x15 => some (signed .w64)
  | 0x1B => some (unsigned .w64)
  | _ => none

/-- The name without a length. -/
def kindName : DataType → String
  | boolean => "bool"
  | signed .w8 => "int8"
  | signed .w16 => "int16"
  | signed .w32 => "int32"
  | signed .w64 => "int64"
  | unsigned .w8 => "uint8"
  | unsigned .w16 => "uint16"
  | unsigned .w32 => "uint32"
  | unsigned .w64 => "uint64"
  | real32 => "real32"
  | real64 => "real64"
  | visibleString _ => "visible_string"
  | octetString _ => "octet_string"
  | domain => "domain"

/-- The name, with the length of a string in brackets. -/
def text (t : DataType) : String :=
  match t with
  | visibleString length | octetString length => t.kindName ++ "[" ++ toString length ++ "]"
  | _ => t.kindName

def ofName? : String → Option DataType
  | "bool" | "boolean" => some boolean
  | "int8" | "i8" => some (signed .w8)
  | "int16" | "i16" => some (signed .w16)
  | "int32" | "i32" => some (signed .w32)
  | "int64" | "i64" => some (signed .w64)
  | "uint8" | "u8" => some (unsigned .w8)
  | "uint16" | "u16" => some (unsigned .w16)
  | "uint32" | "u32" => some (unsigned .w32)
  | "uint64" | "u64" => some (unsigned .w64)
  | "real32" | "float32" | "f32" => some real32
  | "real64" | "float64" | "f64" => some real64
  | "domain" => some domain
  | _ => none

def ofSizedName? (length : Nat) : String → Option DataType
  | "visible_string" | "str" => some (visibleString length)
  | "octet_string" | "bytes" => some (octetString length)
  | _ => none

/-- Reads a length and the bracket after it. -/
def readLength? (cs : List Char) : Option Nat :=
  match dropLastChar? ']' cs with
  | some inner => Number.readUnsigned? 10 (2 ^ 64) (trimChars inner)
  | none => none

/-- Reads a name, with a length in brackets where the type has one. Blanks are allowed around the
name and around the length. -/
def ofChars? (cs : List Char) : Option DataType :=
  match splitOnce '[' (trimChars cs) with
  | none => ofName? (String.ofList (trimChars cs))
  | some (name, rest) =>
    match readLength? rest with
    | some length => ofSizedName? length (String.ofList (trimChars name))
    | none => none

def ofText? (s : String) : Option DataType := ofChars? s.toList

theorem ofCode?_code (t : DataType) (length : Nat)
    (h : ∀ n, t.byteSize? = some n → t = visibleString n ∨ t = octetString n → n = length) :
    ofCode? t.code (some length) = some t := by
  cases t with
  | signed w => cases w <;> rfl
  | unsigned w => cases w <;> rfl
  | visibleString n =>
    have : n = length := h n rfl (Or.inl rfl)
    subst this; rfl
  | octetString n =>
    have : n = length := h n rfl (Or.inr rfl)
    subst this; rfl
  | _ => rfl

end DataType

end Canopen
