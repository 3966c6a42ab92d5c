/-!
# Hexadecimal text of bytes

Bytes are written as two lower-case digits each and read back in either case. A text with an odd
number of characters, or with a character that is no digit, is refused with the place of the fault.
-/
namespace Canopen.Text.Hex

/-- The digit of a number below sixteen, lower case. -/
def digit (n : Nat) : Char :=
  if n < 10 then Char.ofNat (48 + n) else Char.ofNat (87 + n)

/-- The digit of a number below sixteen, upper case. -/
def upperDigit (n : Nat) : Char :=
  if n < 10 then Char.ofNat (48 + n) else Char.ofNat (55 + n)

def digitValue? (c : Char) : Option Nat :=
  let n := c.toNat
  if 48 ≤ n ∧ n ≤ 57 then some (n - 48)
  else if 97 ≤ n ∧ n ≤ 102 then some (n - 87)
  else if 65 ≤ n ∧ n ≤ 70 then some (n - 55)
  else none

theorem digitValue?_digit : ∀ n < 16, digitValue? (digit n) = some n := by decide

/-- The two digits of each byte in turn. -/
def encodeChars (bytes : List UInt8) : List Char :=
  bytes.flatMap fun b => [digit (b.toNat / 16), digit (b.toNat % 16)]

def encode (bytes : List UInt8) : String := String.ofList (encodeChars bytes)

/-- At least `width` upper-case digits of a number. -/
def padded (width n : Nat) : String :=
  let digits := (Nat.toDigits 16 n).map Char.toUpper
  String.ofList (List.replicate (width - digits.length) '0' ++ digits)

def paddedLower (width n : Nat) : String :=
  let digits := Nat.toDigits 16 n
  String.ofList (List.replicate (width - digits.length) '0' ++ digits)

inductive Fault where
  | oddLength
  | invalidDigit (digit : Char) (position : Nat)
  deriving DecidableEq, Repr

/-- A character of one byte as it is shown in single quotes. Those that cannot be seen are shown by
escapes. -/
def shown (c : Char) : String :=
  let n := c.toNat
  if n = 0 then "\\0"
  else if c = '\t' then "\\t"
  else if c = '\n' then "\\n"
  else if c = '\r' then "\\r"
  else if c = '\'' then "\\'"
  else if c = '\\' then "\\\\"
  else if n < 0x20 || (0x7F ≤ n && n ≤ 0xA0) || n = 0xAD then
    "\\u\x7b" ++ paddedLower 1 n ++ "\x7d"
  else String.singleton c

/-- The wording of a fault; the position counts bytes. -/
def Fault.message : Fault → String
  | .oddLength => "Odd number of digits"
  | .invalidDigit c position =>
    "Invalid character '" ++ shown c ++ "' at position " ++ toString position

/-- Reads pairs of digits; `position` is the place of the first character. -/
def decodePairs : Nat → List Char → Except Fault (List UInt8)
  | _, [] => .ok []
  | _, [_] => .error .oddLength
  | position, high :: low :: rest =>
    match digitValue? high with
    | none => .error (.invalidDigit high position)
    | some h =>
      match digitValue? low with
      | none => .error (.invalidDigit low (position + 1))
      | some l =>
        match decodePairs (position + 2) rest with
        | .ok bytes => .ok (UInt8.ofNat (16 * h + l) :: bytes)
        | .error fault => .error fault

theorem decodePairs_encodeChars (position : Nat) (bytes : List UInt8) :
    decodePairs position (encodeChars bytes) = .ok bytes := by
  induction bytes generalizing position with
  | nil => rfl
  | cons b rest ih =>
    have hb := b.toNat_lt
    have hhigh := digitValue?_digit (b.toNat / 16) (by omega)
    have hlow := digitValue?_digit (b.toNat % 16) (by omega)
    have hpairs : encodeChars (b :: rest) =
        digit (b.toNat / 16) :: digit (b.toNat % 16) :: encodeChars rest := rfl
    have hbyte : UInt8.ofNat (16 * (b.toNat / 16) + b.toNat % 16) = b := by
      rw [Nat.div_add_mod, UInt8.ofNat_toNat]
    simp only [hpairs, decodePairs, hhigh, hlow, ih, hbyte]

/-- Reads the characters, each of which stands for one byte of text. The length is looked at first. -/
def decodeChars (cs : List Char) : Except Fault (List UInt8) :=
  if cs.length % 2 = 1 then .error .oddLength else decodePairs 0 cs

/-- Reads a text. Its length is counted in bytes, and a byte that begins or continues a longer
character is reported as the character with the number of that byte. -/
def decode (s : String) : Except Fault (List UInt8) :=
  decodeChars (s.toUTF8.data.toList.map fun b => Char.ofNat b.toNat)

end Canopen.Text.Hex
