import Canopen.Proofs.Value.Coding
import Mathlib.Data.Int.ModEq
/-!
# Integers as bits and as numbers

The bytes of an integer are read in two ways: as a pattern of 64 bits, of which the missing ones are
zero, and as the whole number they stand for, which may be negative. Both tell the same stored value.
They differ by a multiple of the number of patterns, each of them leads back to the bytes, and bytes of
a wrong number are read in neither way (`DataType.readings_agree`).
-/
namespace Canopen.DataType

variable {t : DataType} {w : IntWidth} {data : List UInt8} {v : Value} {low high n : Int}

/-- The pattern is the number that the bytes make up without a sign. -/
theorem exists_toNat_rawBits (hw : t.intWidth? = some w) (hlength : data.length = w.bytes) :
    ∃ raw, t.rawBits data = .ok raw ∧ raw.toNat = Bytes.toNat data := by
  have hlt : Bytes.toNat data < 2 ^ 64 := Nat.lt_of_lt_of_le (toNat_lt_of_length hlength) w.two_pow_le
  refine ⟨_, (rawBits_eq_ok_iff hw).mpr ⟨hlength, rfl⟩, ?_⟩
  rw [BitVec.toNat_ofNat, Nat.mod_eq_of_lt hlt]

/-- A pattern that has been cut down to bytes has lost the bits there is no room for. -/
theorem exists_rawBits_ofRawBits (hw : t.intWidth? = some w) (bits : BitVec 64) :
    ∃ data raw, t.ofRawBits bits = .ok data ∧ t.rawBits data = .ok raw ∧
      raw.toNat = bits.toNat % 2 ^ w.bits := by
  obtain ⟨raw, hraw, hnumber⟩ := exists_toNat_rawBits hw (Bytes.length_littleEndian w.bytes bits.toNat)
  refine ⟨_, raw, ofRawBits_eq hw bits, hraw, ?_⟩
  rw [hnumber, Bytes.toNat_littleEndian, ← w.two_pow_bits]

theorem ofRawBits_of_toNat {raw : BitVec 64} (hw : t.intWidth? = some w)
    (hlength : data.length = w.bytes) (hraw : raw.toNat = Bytes.toNat data) :
    t.ofRawBits raw = .ok data := by
  rw [ofRawBits_eq hw, hraw, ← hlength, Bytes.littleEndian_toNat]

/-- A pattern and the number it stands for differ by a multiple of the number of patterns. -/
theorem modEq_integerOfPattern (t : DataType) {pattern : Nat} (hlt : pattern < 2 ^ w.bits) :
    (pattern : Int) ≡ t.integerOfPattern w pattern [ZMOD 2 ^ w.bits] := by
  have hpos : (0 : Int) < 2 ^ w.bits := Int.pow_pos (by decide)
  have hnonneg := Int.emod_nonneg (t.integerOfPattern w pattern) hpos.ne'
  have hpattern := emod_integerOfPattern t hlt
  have hrest : t.integerOfPattern w pattern % 2 ^ w.bits = pattern := by omega
  calc
    (pattern : Int) = t.integerOfPattern w pattern % 2 ^ w.bits := hrest.symm
    _ ≡ t.integerOfPattern w pattern [ZMOD 2 ^ w.bits] := Int.mod_modEq _ _

/-- The pattern in the bytes of a number is the number without its multiples of the number of patterns. -/
theorem exists_rawBits_encode (hw : t.intWidth? = some w) (hrange : t.intRange? = some (low, high))
    (hn : v.integer? = some n) (hlow : low ≤ n) (hhigh : n ≤ high) :
    ∃ data raw, t.encode v = .ok data ∧ t.rawBits data = .ok raw ∧ (raw.toNat : Int) = n % 2 ^ w.bits := by
  have hpos : (0 : Int) < 2 ^ w.bits := Int.pow_pos (by decide)
  have hlength := Bytes.length_littleEndian w.bytes (n % 2 ^ w.bits).toNat
  obtain ⟨raw, hraw, hnumber⟩ := exists_toNat_rawBits hw hlength
  refine ⟨_, raw, ?_, hraw, ?_⟩
  · rw [encode_eq hw hrange, hn]
    exact encodeInteger_of_mem hlow hhigh
  · rw [hnumber, toNat_littleEndian_emod]
    exact Int.toNat_of_nonneg (Int.emod_nonneg n hpos.ne')

/-- What the readings of an integer type as patterns of `w` and as numbers from `low` to `high` have to do
with one another. -/
structure ReadAlike (t : DataType) (w : IntWidth) (low high : Int) : Prop where
  both : ∀ data, data.length = w.bytes → ∃ raw v n,
    t.rawBits data = .ok raw ∧ t.ofRawBits raw = .ok data ∧
      t.decode data = .ok v ∧ v.integer? = some n ∧ low ≤ n ∧ n ≤ high ∧
        raw.toNat < 2 ^ w.bits ∧ (raw.toNat : Int) ≡ n [ZMOD 2 ^ w.bits]
  encoded : ∀ v n, v.integer? = some n → low ≤ n → n ≤ high → ∃ data raw,
    t.encode v = .ok data ∧ t.rawBits data = .ok raw ∧ (raw.toNat : Int) = n % 2 ^ w.bits
  cutDown : ∀ bits, ∃ data raw, t.ofRawBits bits = .ok data ∧ t.rawBits data = .ok raw ∧
    raw.toNat = bits.toNat % 2 ^ w.bits
  neither : ∀ data, data.length ≠ w.bytes →
    t.rawBits data = .error (.malformed t (.wrongLength w.bytes data.length)) ∧
      t.decode data = .error (.malformed t (.wrongLength w.bytes data.length))

/-- The bytes of every integer type are read alike as bits and as numbers. -/
theorem readings_agree (hw : t.intWidth? = some w) (hrange : t.intRange? = some (low, high)) :
    t.ReadAlike w low high := by
  constructor
  case both =>
    intro data hlength
    have hlt := toNat_lt_of_length hlength
    obtain ⟨raw, hraw, hpattern⟩ := exists_toNat_rawBits hw hlength
    obtain ⟨v, hdecode, hnumber, -⟩ := exists_decode hw hlength
    obtain ⟨hlow, hhigh⟩ := integerOfPattern_mem hw hrange hlt
    refine ⟨raw, v, _, hraw, ofRawBits_of_toNat hw hlength hpattern, hdecode, hnumber, hlow, hhigh, ?_, ?_⟩
    · rwa [hpattern]
    · rw [hpattern]
      exact modEq_integerOfPattern t hlt
  case encoded =>
    intro v n hn hlow hhigh
    exact exists_rawBits_encode hw hrange hn hlow hhigh
  case cutDown => exact exists_rawBits_ofRawBits hw
  case neither =>
    intro data hne
    exact ⟨rawBits_of_length_ne hw hne, decode_of_length_ne (byteSize?_of_intWidth? hw) hne⟩

/-- The number -2 and its bytes, a pattern that is too long, and bytes that are too few. -/
theorem readings_agree_minusTwo :
    (∃ raw, (signed .w16).rawBits [0xFE, 0xFF] = .ok raw ∧ raw.toNat < 2 ^ 16 ∧
      (raw.toNat : Int) ≡ -2 [ZMOD 2 ^ 16]) ∧
    (∃ data raw, (signed .w16).encode (.int (-2)) = .ok data ∧ (signed .w16).rawBits data = .ok raw ∧
      (raw.toNat : Int) = -2 % 2 ^ 16) ∧
    (∃ data raw, (unsigned .w8).ofRawBits 0x1FF = .ok data ∧ (unsigned .w8).rawBits data = .ok raw ∧
      raw.toNat = 0x1FF % 2 ^ 8) ∧
    (unsigned .w64).rawBits [7] = .error (.malformed (.unsigned .w64) (.wrongLength 8 1)) := by
  have hshort := readings_agree (t := signed .w16) rfl rfl
  have hbyte := readings_agree (t := unsigned .w8) rfl rfl
  have hlong := readings_agree (t := unsigned .w64) rfl rfl
  have hdecode : (signed .w16).decode [0xFE, 0xFF] = .ok (.int (-2)) := by rfl
  obtain ⟨raw, v, n, hraw, -, hv, hn, -, -, hlt, hcongruent⟩ := hshort.both [0xFE, 0xFF] rfl
  cases hdecode.symm.trans hv
  cases hn
  exact ⟨⟨raw, hraw, hlt, hcongruent⟩, hshort.encoded (.int (-2)) (-2) rfl (by decide) (by decide),
    hbyte.cutDown 0x1FF, (hlong.neither [7] (by decide)).1⟩

end Canopen.DataType
