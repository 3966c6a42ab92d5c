import Canopen.Cli.Argument
import Canopen.Proofs.Number.Rounding
import Canopen.Proofs.Value.Coding
/-!
# Numbers of 32 bits as bytes

A number of 64 bits is encoded in four bytes exactly if these give it back. Of the others those beyond the
largest number of 32 bits are told apart from those that would have to be rounded
(`DataType.EncodesReal32`), and a text on the command line is rounded beforehand, so that only the former
are refused (`DataType.real32_exact`).
-/
namespace Canopen

open Number

namespace DataType

open Binary64

variable {x : Binary64} {s : UInt32} {data : List UInt8}

theorem encodeReal32_of_exceeds (h : x.ExceedsSingle) :
    encodeReal32 x = .error (.outOfRange (.real x)) := by
  obtain ⟨hfinite, hlt⟩ := exceedsSingle_iff.mp h
  simp [encodeReal32, hfinite, hlt]

/-- What is in range is compared with what its nearest pattern gives back. -/
theorem encodeReal32_of_not_exceeds (h : ¬x.ExceedsSingle) : encodeReal32 x =
    if x.isFinite && widen x.narrow != x then .error (.inexact x real32)
    else .ok (Bytes.littleEndian 4 x.narrow.toNat) := by
  rw [exceedsSingle_iff] at h
  rw [encodeReal32, if_neg (by simpa using h)]

theorem encodeReal32_of_same (hnan : x.denote ≠ .nan)
    (h : (Format.single.denote s.toNat).Same x.denote) :
    encodeReal32 x = .ok (Bytes.littleEndian 4 s.toNat) := by
  have hs : Format.single.denote s.toNat ≠ .nan := mt h.eq_nan_iff.mp hnan
  rw [encodeReal32_of_not_exceeds (not_exceedsSingle_of_isSingle ⟨s, h⟩), narrow_of_same hs h,
    widen_of_same hnan h]
  simp

theorem encodeReal32_of_not_isSingle (hnan : x.denote ≠ .nan) (hexceeds : ¬x.ExceedsSingle)
    (h : ¬x.IsSingle) : encodeReal32 x = .error (.inexact x real32) := by
  have hfinite : x.isFinite := by_contra fun hinfinite => h (isSingle_of_not_finite hnan hinfinite)
  have hne : widen x.narrow ≠ x := fun heq => h (heq ▸ isSingle_widen x.narrow)
  rw [encodeReal32_of_not_exceeds hexceeds, if_pos (by simp [hfinite, hne])]

theorem decode_real32 (h : data.length = 4) :
    real32.decode data = .ok (.float (widen (UInt32.ofNat (Bytes.toNat data)))) :=
  decode_of_length rfl h

theorem decode_littleEndian (s : UInt32) :
    real32.decode (Bytes.littleEndian 4 s.toNat) = .ok (.float (widen s)) := by
  rw [decode_real32 (Bytes.length_littleEndian ..), Bytes.toNat_littleEndian,
    Nat.mod_eq_of_lt s.toNat_lt, UInt32.ofNat_toNat]

/-- How a number that is none of the not-a-numbers is encoded. -/
structure EncodesReal32 (x : Binary64) : Prop where
  ok_iff : (∃ data, real32.encode (.float x) = .ok data) ↔ x.IsSingle
  /-- The bytes are those of the pattern that denotes the same, and they give the number back bit for
  bit. -/
  of_same : ∀ s : UInt32, (Format.single.denote s.toNat).Same x.denote →
    real32.encode (.float x) = .ok (Bytes.littleEndian 4 s.toNat) ∧
      real32.decode (Bytes.littleEndian 4 s.toNat) = .ok (.float x)
  outOfRange_iff : real32.encode (.float x) = .error (.outOfRange (.real x)) ↔ x.ExceedsSingle
  inexact_iff : real32.encode (.float x) = .error (.inexact x real32) ↔
    ¬x.IsSingle ∧ ¬x.ExceedsSingle
  error : ∀ e, real32.encode (.float x) = .error e →
    e = .outOfRange (.real x) ∨ e = .inexact x real32

theorem encodesReal32 (hnan : x.denote ≠ .nan) : EncodesReal32 x := by
  have hencode : real32.encode (.float x) = encodeReal32 x := rfl
  have hsame : ∀ s : UInt32, (Format.single.denote s.toNat).Same x.denote →
      real32.encode (.float x) = .ok (Bytes.littleEndian 4 s.toNat) ∧
        real32.decode (Bytes.littleEndian 4 s.toNat) = .ok (.float x) := by
    intro s h
    rw [decode_littleEndian, widen_of_same hnan h]
    exact ⟨encodeReal32_of_same hnan h, rfl⟩
  by_cases hsingle : x.IsSingle
  · have hexceeds := not_exceedsSingle_of_isSingle hsingle
    obtain ⟨s, h⟩ := hsingle
    obtain ⟨hok, -⟩ := hsame s h
    refine ⟨iff_of_true ⟨_, hok⟩ ⟨s, h⟩, hsame, iff_of_false (by simp [hok]) hexceeds,
      iff_of_false (by simp [hok]) fun hnot => hnot.1 ⟨s, h⟩, fun e he => ?_⟩
    cases hok.symm.trans he
  · by_cases hexceeds : x.ExceedsSingle
    · have herror := hencode.trans (encodeReal32_of_exceeds hexceeds)
      refine ⟨iff_of_false (by simp [herror]) hsingle, hsame, iff_of_true herror hexceeds,
        iff_of_false (by simp [herror]) fun hnot => hnot.2 hexceeds, fun e he => .inl ?_⟩
      exact (Except.error.inj (herror.symm.trans he)).symm
    · have herror := hencode.trans (encodeReal32_of_not_isSingle hnan hexceeds hsingle)
      refine ⟨iff_of_false (by simp [herror]) hsingle, hsame, iff_of_false (by simp [herror]) hexceeds,
        iff_of_true herror ⟨hsingle, hexceeds⟩, fun e he => .inr ?_⟩
      exact (Except.error.inj (herror.symm.trans he)).symm

/-- A not-a-number is encoded as one. -/
theorem exists_encode_of_nan (h : x.denote = .nan) : ∃ data v, real32.encode (.float x) = .ok data ∧
    real32.decode data = .ok (.float v) ∧ v.denote = .nan := by
  have hexceeds : ¬x.ExceedsSingle := by
    rintro ⟨negative, s, e, hdenote, -⟩
    rw [h] at hdenote
    contradiction
  have hinfinite : x.isFinite = false := by
    rw [← Bool.not_eq_true, isFinite_iff]
    rintro ⟨negative, s, e, hdenote⟩
    rw [h] at hdenote
    contradiction
  refine ⟨_, _, ?_, decode_littleEndian x.narrow, denote_widen_eq_nan_iff.mpr (denote_narrow_of_nan h)⟩
  exact (encodeReal32_of_not_exceeds hexceeds).trans (by simp [hinfinite])

/-- Bytes come back from what is decoded from them. -/
theorem encode_of_decode_real32 (hlength : data.length = 4)
    (hnan : Format.single.denote (Bytes.toNat data) ≠ .nan) :
    ∃ v, real32.decode data = .ok (.float v) ∧ real32.encode (.float v) = .ok data := by
  have hlt : Bytes.toNat data < 2 ^ 32 := by
    have h := Bytes.toNat_lt data
    rwa [hlength] at h
  have hpattern : (UInt32.ofNat (Bytes.toNat data)).toNat = Bytes.toNat data :=
    UInt32.toNat_ofNat_of_lt' hlt
  have hself : Bytes.littleEndian 4 (Bytes.toNat data) = data := hlength ▸ Bytes.littleEndian_toNat data
  rw [← hpattern] at hnan
  refine ⟨_, decode_real32 hlength, ?_⟩
  have hencode := encodeReal32_of_same (mt denote_widen_eq_nan_iff.mp hnan) (same_widen _)
  rwa [hpattern, hself] at hencode

/-- What has been rounded to 32 bits is encoded. -/
theorem exists_encode_widen (s : UInt32) : ∃ data, real32.encode (.float (widen s)) = .ok data := by
  by_cases hnan : Format.single.denote s.toNat = .nan
  · obtain ⟨data, -, hencode, -⟩ := exists_encode_of_nan (denote_widen_eq_nan_iff.mpr hnan)
    exact ⟨data, hencode⟩
  · exact ⟨_, encodeReal32_of_same (mt denote_widen_eq_nan_iff.mp hnan) (same_widen s)⟩

/-- A number in range is rounded. -/
theorem roundToSingle_of_range (hfinite : x.isFinite) (h : ¬x.ExceedsSingle) :
    Cli.roundToSingle x = widen x.narrow := by
  rw [exceedsSingle_iff, not_and, Nat.not_lt] at h
  exact if_pos (h hfinite)

/-- A number out of range and what is no number is left as it is. -/
theorem roundToSingle_of_not_range (h : ¬(x.isFinite ∧ ¬x.ExceedsSingle)) :
    Cli.roundToSingle x = x := by
  refine if_neg fun hle => h ⟨?_, fun hexceeds => ?_⟩
  · have hlargest : Format.single.convert .double Format.single.largest < Format.double.infinity := by
      decide +kernel
    exact decide_eq_true (Nat.lt_of_le_of_lt hle hlargest)
  · exact absurd (exceedsSingle_iff.mp hexceeds).2 (Nat.not_lt.mpr hle)

/-- A number of a text is rounded unless it is out of range, so for no other reason it is refused. -/
theorem encode_roundToSingle (x : Binary64) (e : DictionaryError) :
    real32.encode (.float (Cli.roundToSingle x)) = .error e ↔
      x.ExceedsSingle ∧ e = .outOfRange (.real x) := by
  by_cases hexceeds : x.ExceedsSingle
  · have herror : real32.encode (.float x) = .error (.outOfRange (.real x)) :=
      encodeReal32_of_exceeds hexceeds
    rw [roundToSingle_of_not_range fun h => h.2 hexceeds, herror]
    simp [hexceeds, eq_comm]
  · refine iff_of_false (fun herror => ?_) fun h => hexceeds h.1
    by_cases hfinite : x.isFinite
    · obtain ⟨data, hencode⟩ := exists_encode_widen x.narrow
      rw [roundToSingle_of_range hfinite hexceeds, hencode] at herror
      contradiction
    · rw [roundToSingle_of_not_range fun h => hfinite h.1] at herror
      have hok := (encodeReal32_of_not_exceeds hexceeds).symm.trans herror
      simp [hfinite] at hok

/-- What a text comes to as a number of 32 bits. -/
theorem exists_read_of_readValue {text : String} {v : Value}
    (h : Cli.readValue real32 text = .ok v) :
    ∃ x, Binary64.read (Text.trim text) = .ok x ∧ v = .float (Cli.roundToSingle x) := by
  simp only [Cli.readValue, Cli.readFloat] at h
  cases hread : Binary64.read (Text.trim text) with
  | error fault =>
    rw [hread] at h
    contradiction
  | ok x =>
    rw [hread] at h
    exact ⟨x, rfl, (Except.ok.inj h).symm⟩

/-- Numbers of 32 bits are encoded and decoded exactly. Widening keeps every pattern and narrowing rounds
to the nearest; a number of 64 bits is encoded if it has a pattern of 32 bits and refused if it has none,
and not-a-numbers are encoded as such; bytes are got back from what they are decoded to. Of a text that is
read for the type the value is refused only where the number of the text is out of range. -/
theorem real32_exact :
    (∀ s : UInt32, (Format.single.denote s.toNat).Same (widen s).denote) ∧
    (∀ x : Binary64, x.isFinite → ¬x.ExceedsSingle → x.RoundsTo x.narrow) ∧
    (∀ x : Binary64, x.denote ≠ .nan → EncodesReal32 x) ∧
    (∀ x : Binary64, x.denote = .nan → ∃ data v, real32.encode (.float x) = .ok data ∧
      real32.decode data = .ok (.float v) ∧ v.denote = .nan) ∧
    (∀ data : List UInt8, data.length = 4 → Format.single.denote (Bytes.toNat data) ≠ .nan →
      ∃ v, real32.decode data = .ok (.float v) ∧ real32.encode (.float v) = .ok data) ∧
    ∀ (text : String) (v : Value), Cli.readValue real32 text = .ok v →
      ∃ x, Binary64.read (Text.trim text) = .ok x ∧
        (x.isFinite → ¬x.ExceedsSingle → v = .float (widen x.narrow)) ∧
        ∀ e, real32.encode v = .error e ↔ x.ExceedsSingle ∧ e = .outOfRange (.real x) := by
  refine ⟨same_widen, fun _ => roundsTo_narrow, fun _ => encodesReal32, fun _ => exists_encode_of_nan,
    fun _ => encode_of_decode_real32, fun text v h => ?_⟩
  obtain ⟨x, hread, rfl⟩ := exists_read_of_readValue h
  refine ⟨x, hread, fun hfinite hrange => ?_, encode_roundToSingle x⟩
  rw [roundToSingle_of_range hfinite hrange]

/-- One and a half is encoded, a tenth is inexact, two to the power of 128 is out of range, a
not-a-number stays one, and `1.5` is read as one and a half. -/
theorem real32_exact_samples :
    real32.encode (.float ⟨0x3FF8000000000000⟩) = .ok [0x00, 0x00, 0xC0, 0x3F] ∧
    (¬(Binary64.mk 0x3FB999999999999A).IsSingle ∧ ¬(Binary64.mk 0x3FB999999999999A).ExceedsSingle) ∧
    (Binary64.mk 0x47F0000000000000).ExceedsSingle ∧
    (∃ data v, real32.encode (.float ⟨0x7FF0000000000001⟩) = .ok data ∧
      real32.decode data = .ok (.float v) ∧ v.denote = .nan) ∧
    (∃ v, real32.decode [0x01, 0x00, 0x00, 0x80] = .ok (.float v) ∧
      real32.encode (.float v) = .ok [0x01, 0x00, 0x00, 0x80]) ∧
    ∃ x, Binary64.read (Text.trim "1.5") = .ok x := by
  obtain ⟨-, -, hnumber, hnan, hbytes, htext⟩ := real32_exact
  have hsame : (Format.single.denote (0x3FC00000 : UInt32).toNat).Same
      (Binary64.mk 0x3FF8000000000000).denote := by
    have hwide : (Binary64.mk 0x3FF8000000000000).denote =
        .finite false 6755399441055744 (-52) := by decide +kernel
    have hnarrow : Format.single.denote (0x3FC00000 : UInt32).toNat = .finite false 12582912 (-23) := by
      decide +kernel
    rw [hwide, hnarrow]
    exact ⟨rfl, by norm_num⟩
  refine ⟨((hnumber _ (by decide +kernel)).of_same _ hsame).1, ?_, ?_, hnan _ (by decide +kernel),
    hbytes _ rfl (by decide +kernel), ?_⟩
  · exact (hnumber _ (by decide +kernel)).inexact_iff.mp (by decide +kernel)
  · exact (hnumber _ (by decide +kernel)).outOfRange_iff.mp (by decide +kernel)
  · obtain ⟨x, hread, -⟩ := htext "1.5" (.float ⟨0x3FF8000000000000⟩) (by decide +kernel)
    exact ⟨x, hread⟩

end DataType

end Canopen
