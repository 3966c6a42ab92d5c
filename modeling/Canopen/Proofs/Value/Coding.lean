import Mathlib.Data.List.TakeWhile
import Canopen.Proofs.Entry.Fields
import Canopen.Proofs.Text.Utf8
/-!
# Values and their bytes

The bytes of an integer are a pattern of bits that stands for a whole number of the type's range, each
number for one pattern (`DataType.integerOfPattern`); strings are filled up with zeros, which do not
belong to them. So a value that is encoded is decoded from its bytes, and bytes that are decoded come
back from the value (`DataType.coding_exact`). Of floating-point types only the length of the bytes is
spoken of here.
-/
namespace Canopen

open Canopen.Text

namespace Bytes

/-- The zero bytes at the end are put back by filling up to the former length. -/
theorem padTo_dropTrailingZeros (data : List UInt8) :
    padTo data.length (dropTrailingZeros data) = data := by
  have hsplit : dropTrailingZeros data ++ (data.reverse.takeWhile (· == 0)).reverse = data := by
    rw [dropTrailingZeros, ← List.reverse_append, List.takeWhile_append_dropWhile, List.reverse_reverse]
  have hzeros : (data.reverse.takeWhile (· == 0)).reverse =
      List.replicate (data.length - (dropTrailingZeros data).length) 0 := by
    refine List.eq_replicate_iff.mpr ⟨?_, fun b hb => ?_⟩
    · have hlength := congrArg List.length hsplit
      rw [List.length_append] at hlength
      omega
    · simpa using List.mem_takeWhile_imp (List.mem_reverse.mp hb)
  rw [padTo, ← hzeros, hsplit]

end Bytes

namespace DataType

variable {t : DataType} {w : IntWidth} {data bytes : List UInt8} {v : Value} {low high n : Int}

section Integers

/-- The whole number that a pattern of bits stands for in an integer type. -/
def integerOfPattern (t : DataType) (w : IntWidth) (pattern : Nat) : Int :=
  if t.isSigned then signedOfPattern w.bits pattern else pattern

/-- Encoding into an integer type asks for a whole number. -/
theorem encode_eq (hw : t.intWidth? = some w) (hrange : t.intRange? = some (low, high)) (v : Value) :
    t.encode v =
      match v.integer? with
      | some n => encodeInteger w (low, high) n
      | none => .error (.typeMismatch t v.kind) := by
  cases t <;> cases hw <;> cases hrange <;> rfl

theorem signedOfPattern_emod (w : IntWidth) (hlow : -2 ^ (w.bits - 1) ≤ n)
    (hhigh : n ≤ 2 ^ (w.bits - 1) - 1) : signedOfPattern w.bits (n % 2 ^ w.bits).toNat = n := by
  have hpow : (2 : Int) ^ w.bits = 2 * (2 ^ (w.bits - 1) : Nat) := by
    exact_mod_cast w.two_pow_bits_eq
  have hhalf : (2 : Int) ^ (w.bits - 1) = (2 ^ (w.bits - 1) : Nat) := by norm_cast
  rw [hhalf] at hlow hhigh
  unfold signedOfPattern
  rw [hpow]
  by_cases hn : 0 ≤ n
  · have hmod : n % (2 * (2 ^ (w.bits - 1) : Nat)) = n := Int.emod_eq_of_lt hn (by omega)
    rw [hmod, if_pos (by omega)]
    omega
  · have hmod : n % (2 * (2 ^ (w.bits - 1) : Nat)) = n + 2 * (2 ^ (w.bits - 1) : Nat) := by
      rw [← Int.add_emod_right]
      exact Int.emod_eq_of_lt (by omega) (by omega)
    rw [hmod, if_neg (by omega)]
    omega

/-- The pattern of a number of the range stands for this number. -/
theorem integerOfPattern_emod (hw : t.intWidth? = some w) (hrange : t.intRange? = some (low, high))
    (hlow : low ≤ n) (hhigh : n ≤ high) : t.integerOfPattern w (n % 2 ^ w.bits).toNat = n := by
  cases t <;> cases hw <;> cases hrange
  case signed => exact signedOfPattern_emod w hlow hhigh
  case unsigned =>
    have hmod : n % 2 ^ w.bits = n := Int.emod_eq_of_lt hlow (by omega)
    rw [hmod]
    exact Int.toNat_of_nonneg hlow

/-- The bytes of a number have its pattern. -/
theorem toNat_littleEndian_emod (w : IntWidth) (n : Int) :
    Bytes.toNat (Bytes.littleEndian w.bytes (n % 2 ^ w.bits).toNat) = (n % 2 ^ w.bits).toNat := by
  have hwhole : (2 : Int) ^ w.bits = (2 ^ w.bits : Nat) := by norm_cast
  have hpos : 0 < 2 ^ w.bits := Nat.two_pow_pos w.bits
  have hnonneg : 0 ≤ n % (2 ^ w.bits : Nat) := Int.emod_nonneg n (by omega)
  have hlt : n % (2 ^ w.bits : Nat) < (2 ^ w.bits : Nat) := Int.emod_lt_of_pos n (by omega)
  rw [Bytes.toNat_littleEndian, ← w.two_pow_bits, hwhole, Nat.mod_eq_of_lt (by omega)]

/-- A pattern stands for a number of the range. -/
theorem integerOfPattern_mem (hw : t.intWidth? = some w) (hrange : t.intRange? = some (low, high))
    {pattern : Nat} (hlt : pattern < 2 ^ w.bits) :
    low ≤ t.integerOfPattern w pattern ∧ t.integerOfPattern w pattern ≤ high := by
  have hpow := w.two_pow_bits_eq
  cases t <;> cases hw <;> cases hrange
  case signed =>
    have hhalf : (2 : Int) ^ (w.bits - 1) = (2 ^ (w.bits - 1) : Nat) := by norm_cast
    have hwhole : (2 : Int) ^ w.bits = (2 ^ w.bits : Nat) := by norm_cast
    simp only [integerOfPattern, isSigned, if_true, signedOfPattern, hhalf, hwhole]
    split <;> omega
  case unsigned =>
    have hwhole : (2 : Int) ^ w.bits = (2 ^ w.bits : Nat) := by norm_cast
    simp only [integerOfPattern, isSigned, Bool.false_eq_true, if_false, hwhole]
    omega

/-- A pattern is that of the number it stands for. -/
theorem emod_integerOfPattern (t : DataType) {pattern : Nat} (hlt : pattern < 2 ^ w.bits) :
    (t.integerOfPattern w pattern % 2 ^ w.bits).toNat = pattern := by
  have hwhole : (2 : Int) ^ w.bits = (2 ^ w.bits : Nat) := by norm_cast
  have hself : ((pattern : Int) % (2 ^ w.bits : Nat)).toNat = pattern := by
    rw [Int.emod_eq_of_lt (by omega) (by omega), Int.toNat_natCast]
  unfold integerOfPattern signedOfPattern
  rw [hwhole]
  split
  · split
    · exact hself
    · rw [Int.sub_emod_right, hself]
  · exact hself

/-- Bytes of the right number are decoded as the number that their pattern stands for. -/
theorem exists_decode (hw : t.intWidth? = some w) (hlength : data.length = w.bytes) :
    ∃ v, t.decode data = .ok v ∧ v.integer? = some (t.integerOfPattern w (Bytes.toNat data)) ∧
      v.kind = if t.isSigned then .int else .uint := by
  have hlt := toNat_lt_of_length hlength
  have hpow := w.two_pow_bits_eq
  have hle := w.two_pow_le
  rw [decode_of_length (byteSize?_of_intWidth? hw) hlength]
  cases t <;> cases hw
  case signed =>
    obtain ⟨hlow, hhigh⟩ := integerOfPattern_mem (t := .signed w) rfl rfl hlt
    have hhalf : (2 : Int) ^ (w.bits - 1) = (2 ^ (w.bits - 1) : Nat) := by norm_cast
    rw [hhalf] at hlow hhigh
    refine ⟨_, rfl, congrArg some ?_, rfl⟩
    exact Int64.toInt_ofInt_of_le (n := integerOfPattern (.signed w) w _) (by omega) (by omega)
  case unsigned =>
    refine ⟨_, rfl, congrArg some ?_, rfl⟩
    exact congrArg Nat.cast (UInt64.toNat_ofNat_of_lt' (Nat.lt_of_lt_of_le hlt hle))

/-- What comes of a value that is to be encoded as an integer from `low` to `high`. -/
structure EncodesInteger (t : DataType) (low high : Int) (v : Value) : Prop where
  accepted : (∃ bytes, t.encode v = .ok bytes) ↔ ∃ n, v.integer? = some n ∧ low ≤ n ∧ n ≤ high
  outOfRange : ∀ fault, t.encode v = .error (.outOfRange fault) ↔
    ∃ n, v.integer? = some n ∧ (n < low ∨ high < n) ∧ .integer n low high = fault
  mismatch : ∀ type kind, t.encode v = .error (.typeMismatch type kind) ↔
    v.integer? = none ∧ t = type ∧ v.kind = kind
  sized : ∀ bytes, t.encode v = .ok bytes → t.byteSize? = some bytes.length
  /-- The number is decoded from the bytes, in the kind of values of the type. -/
  restored : ∀ bytes, t.encode v = .ok bytes → ∃ v', t.decode bytes = .ok v' ∧
    v'.integer? = v.integer? ∧ v'.kind = if t.isSigned then .int else .uint

theorem encodesInteger (hrange : t.intRange? = some (low, high)) (v : Value) :
    EncodesInteger t low high v := by
  obtain ⟨w, hw⟩ := exists_intWidth_of_intRange hrange
  have hencode := encode_eq hw hrange v
  cases hn : v.integer? with
  | none =>
    rw [hn] at hencode
    constructor <;> simp [hencode, hn]
  | some n =>
    rw [hn] at hencode
    dsimp only at hencode
    by_cases hmem : low ≤ n ∧ n ≤ high
    · have hnot : ¬(n < low ∨ high < n) := by omega
      rw [encodeInteger_of_mem hmem.1 hmem.2] at hencode
      have hsize := Bytes.length_littleEndian w.bytes (n % 2 ^ w.bits).toNat
      obtain ⟨v', hdecode, hnumber, hkind⟩ := exists_decode hw hsize
      rw [toNat_littleEndian_emod, integerOfPattern_emod hw hrange hmem.1 hmem.2] at hnumber
      constructor
      case sized => simp [hencode, byteSize?_of_intWidth? hw]
      case restored =>
        rintro bytes hbytes
        cases hencode.symm.trans hbytes
        exact ⟨v', hdecode, hnumber.trans hn.symm, hkind⟩
      all_goals simp [hencode, hn, hmem, hnot]
    · have hout : n < low ∨ high < n := by omega
      rw [encodeInteger_of_not_mem hout] at hencode
      constructor <;> simp [hencode, hn, hmem, hout]

/-- The bytes of an integer are those of the number decoded from them. -/
theorem encode_of_decode_integer (hw : t.intWidth? = some w) (h : t.decode data = .ok v) :
    t.encode v = .ok data := by
  obtain ⟨low, high, hrange⟩ := exists_intRange_of_intWidth hw
  have hlength := length_of_decode (byteSize?_of_intWidth? hw) h
  have hlt := toNat_lt_of_length hlength
  obtain ⟨v', hdecode, hnumber, -⟩ := exists_decode hw hlength
  cases h.symm.trans hdecode
  obtain ⟨hlow, hhigh⟩ := integerOfPattern_mem hw hrange hlt
  rw [encode_eq hw hrange, hnumber]
  dsimp only
  rw [encodeInteger_of_mem hlow hhigh, emod_integerOfPattern t hlt, ← hlength,
    Bytes.littleEndian_toNat]

end Integers

theorem encodePadded_dropTrailingZeros {length : Nat} (h : data.length = length) :
    encodePadded length (Bytes.dropTrailingZeros data) = .ok data := by
  have hle := Bytes.length_dropTrailingZeros_le data
  rw [encodePadded, if_neg (by omega), ← h, Bytes.padTo_dropTrailingZeros]

/-- A truth value comes back as zero or one. -/
theorem encode_of_decode_boolean (h : boolean.decode data = .ok v) :
    boolean.encode v = .ok (data.map fun b => if b = 0 then 0 else 1) := by
  have hsize : boolean.byteSize? = some 1 := rfl
  have hlength := length_of_decode hsize h
  obtain ⟨b, rfl⟩ := List.length_eq_one_iff.mp hlength
  rw [decode_of_length hsize hlength] at h
  cases h
  have hzero : b.toNat = 0 ↔ b = 0 := UInt8.toNat_inj (b := 0)
  by_cases hb : b = 0 <;> simp [encode, Bytes.toNat, hzero, hb]

/-- Except for truth values, the bytes come back that the value was decoded from. -/
theorem encode_of_decode (ht : t.isFloat = false) (hboolean : t ≠ boolean)
    (h : t.decode data = .ok v) : t.encode v = .ok data := by
  cases t with
  | boolean => contradiction
  | signed w | unsigned w => exact encode_of_decode_integer rfl h
  | real32 | real64 => contradiction
  | visibleString length =>
    have hsize : (visibleString length).byteSize? = some length := rfl
    have hlength := length_of_decode hsize h
    rw [decode_of_length hsize hlength, decodeBytes] at h
    split at h <;> cases h
    rename_i s hs
    rw [encode, Utf8.encode_of_decode hs]
    exact encodePadded_dropTrailingZeros hlength
  | octetString length =>
    have hsize : (octetString length).byteSize? = some length := rfl
    have hlength := length_of_decode hsize h
    rw [decode_of_length hsize hlength] at h
    cases h
    exact encodePadded_dropTrailingZeros hlength
  | domain =>
    cases h
    rfl

/-- What comes back of any type that is not a floating-point one. -/
theorem encode_of_decode_canonical (ht : t.isFloat = false) (h : t.decode data = .ok v) :
    t.encode v = .ok (if t = boolean then data.map fun b => if b = 0 then 0 else 1 else data) := by
  by_cases hboolean : t = boolean
  · subst hboolean
    rw [if_pos rfl]
    exact encode_of_decode_boolean h
  · rw [if_neg hboolean]
    exact encode_of_decode ht hboolean h

/-- A truth value or a domain that is encoded is decoded from its bytes. -/
theorem decode_of_encode (ht : t = boolean ∨ t = domain) (h : t.encode v = .ok bytes) :
    t.decode bytes = .ok v := by
  obtain rfl | rfl := ht
  · cases v <;> cases h
    rename_i b
    cases b <;> rfl
  · cases v <;> cases h
    rfl

/-- Values and bytes correspond exactly. A whole number has bytes in an integer type if and only if it
lies in the range, and they stand for it; truth values and domains are decoded as they were encoded;
of types that are not floating-point, bytes that stand for a value are those of the value, but for a
truth value, of which every byte that is not zero comes back as one; and bytes of another number than
the type has are malformed. -/
theorem coding_exact (t : DataType) :
    (∀ low high, t.intRange? = some (low, high) → ∀ v, EncodesInteger t low high v) ∧
    (t = boolean ∨ t = domain → ∀ v bytes, t.encode v = .ok bytes → t.decode bytes = .ok v) ∧
    (t.isFloat = false → ∀ data v, t.decode data = .ok v →
      t.encode v = .ok (if t = boolean then data.map fun b => if b = 0 then 0 else 1 else data)) ∧
    ∀ size, t.byteSize? = some size → ∀ data, data.length ≠ size →
      t.decode data = .error (.malformed t (.wrongLength size data.length)) := by
  refine ⟨fun low high hrange v => ?_, fun ht v bytes h => ?_, fun ht data v h => ?_,
    fun size hsize data hne => ?_⟩
  · exact encodesInteger hrange v
  · exact decode_of_encode ht h
  · exact encode_of_decode_canonical ht h
  · exact decode_of_length_ne hsize hne

/-- The least number of 16 bits, a truth value, a text with zeros behind it, and bytes that are too few. -/
theorem coding_exact_samples :
    EncodesInteger (signed .w16) (-32768) 32767 (.int (-32768)) ∧
      boolean.decode [1] = .ok (.bool true) ∧
      (visibleString 4).encode (.str "ab") = .ok [0x61, 0x62, 0, 0] ∧
      real32.decode [0, 0] = .error (.malformed real32 (.wrongLength 4 2)) := by
  have htext : (visibleString 4).decode [0x61, 0x62, 0, 0] = .ok (.str "ab") := by rfl
  exact ⟨(coding_exact _).1 _ _ rfl _, (coding_exact _).2.1 (.inl rfl) _ _ rfl,
    (coding_exact _).2.2.1 rfl _ _ htext, (coding_exact _).2.2.2 4 rfl [0, 0] (by decide)⟩

end DataType

end Canopen
