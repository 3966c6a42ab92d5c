/-!
# UTF-8

Reading a byte sequence as text, with the place and the extent of the first fault. The extent of a
fault is the longest beginning of a well-formed character that stands there; a sequence that ends
before its last character is complete is told apart from one that holds a wrong byte.
-/
namespace Canopen.Text.Utf8

inductive Fault where
  /-- The bytes from `start` end inside a character. -/
  | incomplete (start : Nat)
  /-- The `count` bytes from `start` begin no character. -/
  | invalid (count start : Nat)
  deriving DecidableEq, Repr

def Fault.message : Fault → String
  | .incomplete start => "incomplete utf-8 byte sequence from index " ++ toString start
  | .invalid count start =>
    "invalid utf-8 sequence of " ++ toString count ++ " bytes from index " ++ toString start

/-- Holds of the bytes 10xxxxxx. -/
def isTail (b : UInt8) : Bool := 0x80 ≤ b && b ≤ 0xBF

/-- The second bytes that may follow a first byte; the others would give a number that has a
shorter form, is a surrogate or lies above the last character. -/
def isSecond (first second : UInt8) : Bool :=
  if first = 0xE0 then 0xA0 ≤ second && second ≤ 0xBF
  else if first = 0xED then 0x80 ≤ second && second ≤ 0x9F
  else if first = 0xF0 then 0x90 ≤ second && second ≤ 0xBF
  else if first = 0xF4 then 0x80 ≤ second && second ≤ 0x8F
  else isTail second

/-- The number of bytes in the character that a first byte opens. -/
def length? (first : UInt8) : Option Nat :=
  if first ≤ 0x7F then some 1
  else if 0xC2 ≤ first && first ≤ 0xDF then some 2
  else if 0xE0 ≤ first && first ≤ 0xEF then some 3
  else if 0xF0 ≤ first && first ≤ 0xF4 then some 4
  else none

/-- The first fault at or after `start`, where the given bytes begin. -/
def faultFrom (start : Nat) : List UInt8 → Option Fault
  | [] => none
  | a :: rest =>
    match length? a with
    | none => some (.invalid 1 start)
    | some 1 => faultFrom (start + 1) rest
    | some length =>
      match rest with
      | [] => some (.incomplete start)
      | b :: rest =>
        if !isSecond a b then some (.invalid 1 start)
        else if length = 2 then faultFrom (start + 2) rest
        else
          match rest with
          | [] => some (.incomplete start)
          | c :: rest =>
            if !isTail c then some (.invalid 2 start)
            else if length = 3 then faultFrom (start + 3) rest
            else
              match rest with
              | [] => some (.incomplete start)
              | d :: rest =>
                if !isTail d then some (.invalid 3 start) else faultFrom (start + 4) rest

def fault? (bytes : List UInt8) : Option Fault := faultFrom 0 bytes

def encode (s : String) : List UInt8 := s.toUTF8.data.toList

theorem encode_eq_flatMap (s : String) : encode s = s.toList.flatMap String.utf8EncodeChar := by
  rw [encode, String.toUTF8_eq_toByteArray, ← String.utf8Encode_toList, List.utf8Encode]
  simp

theorem utf8EncodeChar_of_plain {c : Char} (h : c.toNat < 128) :
    String.utf8EncodeChar c = [UInt8.ofNat c.toNat] :=
  if_pos (Nat.le_of_lt_succ h)

def decode (bytes : List UInt8) : Except Fault String :=
  match String.fromUTF8? (ByteArray.mk bytes.toArray) with
  | some s => .ok s
  | none => .error ((fault? bytes).getD (.incomplete 0))

end Canopen.Text.Utf8
