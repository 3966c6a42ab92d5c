import Canopen.Bytes
import Canopen.DictionaryError
/-!
# Values as bytes

Encoding a value as the bytes that a node stores for it, decoding such bytes, and the view of an
integer's bytes as a pattern of bits.
-/
namespace Canopen

open Canopen.Number Canopen.Text

namespace DataType

/-- The bytes of a whole number within the range of an integer type, in two's complement. -/
def encodeInteger (w : IntWidth) (range : Int × Int) (v : Int) :
    Except DictionaryError (List UInt8) :=
  if v < range.1 || range.2 < v then .error (.outOfRange (.integer v range.1 range.2))
  else .ok (Bytes.littleEndian w.bytes (v % 2 ^ w.bits).toNat)

theorem encodeInteger_of_mem {w : IntWidth} {low high n : Int} (hlow : low ≤ n) (hhigh : n ≤ high) :
    encodeInteger w (low, high) n = .ok (Bytes.littleEndian w.bytes (n % 2 ^ w.bits).toNat) := by
  rw [encodeInteger, if_neg]
  simp only [Bool.or_eq_true, decide_eq_true_eq]
  omega

theorem encodeInteger_of_not_mem {w : IntWidth} {low high n : Int} (h : n < low ∨ high < n) :
    encodeInteger w (low, high) n = .error (.outOfRange (.integer n low high)) := by
  rw [encodeInteger, if_pos]
  simpa using h

/-- The bytes of a string of fixed length, filled up with zeros. -/
def encodePadded (length : Nat) (bytes : List UInt8) : Except DictionaryError (List UInt8) :=
  if length < bytes.length then .error (.outOfRange (.length bytes.length length))
  else .ok (Bytes.padTo length bytes)

/-- The bytes of a number of 32 bits. A finite number that the format does not hold exactly is
refused, so that reading the bytes gives the number back. -/
def encodeReal32 (x : Binary64) : Except DictionaryError (List UInt8) :=
  let largest := Format.single.convert .double Format.single.largest
  if x.isFinite && largest < Format.double.magnitude x.pattern.toNat then
    .error (.outOfRange (.real x))
  else if x.isFinite && Binary64.widen x.narrow != x then .error (.inexact x real32)
  else .ok (Bytes.littleEndian 4 x.narrow.toNat)

def encode (t : DataType) (v : Value) : Except DictionaryError (List UInt8) :=
  let mismatch : DictionaryError := .typeMismatch t v.kind
  match t with
  | boolean =>
    match v with
    | .bool b => .ok [if b then 1 else 0]
    | _ => .error mismatch
  | signed w =>
    match v.integer? with
    | some n => encodeInteger w (-(2 ^ (w.bits - 1)), 2 ^ (w.bits - 1) - 1) n
    | none => .error mismatch
  | unsigned w =>
    match v.integer? with
    | some n => encodeInteger w (0, 2 ^ w.bits - 1) n
    | none => .error mismatch
  | real32 =>
    match v with
    | .float x => encodeReal32 x
    | _ => .error mismatch
  | real64 =>
    match v with
    | .float x => .ok (Bytes.littleEndian 8 x.pattern.toNat)
    | _ => .error mismatch
  | visibleString length =>
    match v with
    | .str s => encodePadded length (Utf8.encode s)
    | _ => .error mismatch
  | octetString length =>
    match v with
    | .bytes b => encodePadded length b
    | _ => .error mismatch
  | domain =>
    match v with
    | .bytes b => .ok b
    | _ => .error mismatch

/-- The whole number that a pattern of `bits` bits stands for in two's complement. -/
def signedOfPattern (bits pattern : Nat) : Int :=
  if pattern < 2 ^ (bits - 1) then pattern else (pattern : Int) - 2 ^ bits

/-- The value that bytes of the right number stand for. Zero bytes at the end of a string do not
belong to its value, and every byte but zero is true. -/
def decodeBytes (t : DataType) (data : List UInt8) : Except DictionaryError Value :=
  match t with
  | boolean => .ok (.bool (Bytes.toNat data != 0))
  | signed w => .ok (.int (Int64.ofInt (signedOfPattern w.bits (Bytes.toNat data))))
  | unsigned _ => .ok (.uint (UInt64.ofNat (Bytes.toNat data)))
  | real32 => .ok (.float (Binary64.widen (UInt32.ofNat (Bytes.toNat data))))
  | real64 => .ok (.float ⟨UInt64.ofNat (Bytes.toNat data)⟩)
  | visibleString _ =>
    match Utf8.decode (Bytes.dropTrailingZeros data) with
    | .ok s => .ok (.str s)
    | .error fault => .error (.malformed t (.notText fault))
  | octetString _ => .ok (.bytes (Bytes.dropTrailingZeros data))
  | domain => .ok (.bytes data)

def decode (t : DataType) (data : List UInt8) : Except DictionaryError Value :=
  match t.byteSize? with
  | some size =>
    if data.length = size then t.decodeBytes data
    else .error (.malformed t (.wrongLength size data.length))
  | none => t.decodeBytes data

theorem decode_of_length {t : DataType} {data : List UInt8} {size : Nat}
    (h : t.byteSize? = some size) (hlength : data.length = size) :
    t.decode data = t.decodeBytes data := by
  simp only [decode, h, if_pos hlength]

/-- Bytes of another number are not looked at. -/
theorem decode_of_length_ne {t : DataType} {data : List UInt8} {size : Nat}
    (h : t.byteSize? = some size) (hlength : data.length ≠ size) :
    t.decode data = .error (.malformed t (.wrongLength size data.length)) := by
  simp only [decode, h, if_neg hlength]

theorem length_of_decode {t : DataType} {data : List UInt8} {v : Value} {size : Nat}
    (h : t.byteSize? = some size) (hv : t.decode data = .ok v) :
    data.length = size := by
  refine Decidable.byContradiction fun hne => ?_
  rw [decode_of_length_ne h hne] at hv
  contradiction

/-- The bytes of an integer as a pattern of 64 bits, the missing ones zero. -/
def rawBits (t : DataType) (data : List UInt8) : Except DictionaryError (BitVec 64) :=
  match t.intWidth? with
  | none => .error (.malformed t .notInteger)
  | some w =>
    if data.length = w.bytes then .ok (BitVec.ofNat 64 (Bytes.toNat data))
    else .error (.malformed t (.wrongLength w.bytes data.length))

theorem rawBits_eq_ok_iff {t : DataType} {w : IntWidth} {data : List UInt8} {raw : BitVec 64}
    (hw : t.intWidth? = some w) :
    t.rawBits data = .ok raw ↔ data.length = w.bytes ∧ BitVec.ofNat 64 (Bytes.toNat data) = raw := by
  unfold rawBits
  rw [hw]
  by_cases h : data.length = w.bytes <;> simp [h]

theorem rawBits_of_length_ne {t : DataType} {w : IntWidth} {data : List UInt8}
    (hw : t.intWidth? = some w) (h : data.length ≠ w.bytes) :
    t.rawBits data = .error (.malformed t (.wrongLength w.bytes data.length)) := by
  rw [rawBits, hw]
  exact if_neg h

theorem exists_intWidth_of_rawBits {t : DataType} {data : List UInt8} {raw : BitVec 64}
    (h : t.rawBits data = .ok raw) : ∃ w, t.intWidth? = some w := by
  unfold rawBits at h
  cases hw : t.intWidth? with
  | none =>
    rw [hw] at h
    contradiction
  | some w => exact ⟨w, rfl⟩

/-- The bytes of an integer from a pattern of bits, of which only as many as the type has are
used. -/
def ofRawBits (t : DataType) (bits : BitVec 64) : Except DictionaryError (List UInt8) :=
  match t.intWidth? with
  | none => .error (.malformed t .notInteger)
  | some w => .ok (Bytes.littleEndian w.bytes bits.toNat)

end DataType

end Canopen
