import Canopen.BitField
/-!
# Bit fields bit by bit

A field covers a range of bits of a pattern. Extracting takes these bits and packing sets them, so
that packing leaves every other bit as it is (`BitField.getLsbD_pack`) and what has been packed is
what is extracted (`BitField.extract_pack`).
-/
namespace Canopen.BitField

variable {f : BitField} {raw value packed : BitVec 64}

/-- Holds of the bits of a pattern that belong to the field. -/
def Covers (f : BitField) (i : Nat) : Prop := f.offset ≤ i ∧ i < f.offset + f.width

instance (f : BitField) (i : Nat) : Decidable (f.Covers i) :=
  inferInstanceAs (Decidable (f.offset ≤ i ∧ i < f.offset + f.width))

theorem Covers.lt {i : Nat} (h : f.Covers i) : i < 64 := Nat.lt_of_lt_of_le h.2 f.fits

theorem toNat_maxValue (f : BitField) : f.maxValue.toNat = 2 ^ f.width - 1 := by
  have hpow : 2 ^ f.width ≤ 2 ^ 64 := Nat.pow_le_pow_right (by decide) f.width_le
  have hpos : 0 < 2 ^ f.width := Nat.two_pow_pos f.width
  rw [maxValue, BitVec.toNat_ofNat, Nat.mod_eq_of_lt (by omega)]

theorem getLsbD_maxValue (f : BitField) (i : Nat) :
    f.maxValue.getLsbD i = decide (i < f.width) := by
  rw [BitVec.getLsbD, toNat_maxValue, Nat.testBit_two_pow_sub_one]

theorem getLsbD_mask (f : BitField) (i : Nat) : f.mask.getLsbD i = decide (f.Covers i) := by
  have hfits := f.fits
  rw [mask, BitVec.getLsbD_shiftLeft, getLsbD_maxValue, Bool.eq_iff_iff]
  simp only [Bool.and_eq_true, Bool.not_eq_true', decide_eq_true_eq, decide_eq_false_iff_not]
  unfold Covers
  omega

/-- Extracting takes the bits of the field. -/
theorem getLsbD_extract (f : BitField) (raw : BitVec 64) (i : Nat) :
    (f.extract raw).getLsbD i = (decide (i < f.width) && raw.getLsbD (f.offset + i)) := by
  rw [extract, BitVec.getLsbD_and, BitVec.getLsbD_ushiftRight, getLsbD_maxValue, Bool.and_comm]

/-- What is extracted is a value of the field. -/
theorem toNat_extract_lt (f : BitField) (raw : BitVec 64) : (f.extract raw).toNat < 2 ^ f.width := by
  have hpos : 0 < 2 ^ f.width := Nat.two_pow_pos f.width
  have hle : (f.extract raw).toNat ≤ f.maxValue.toNat := by
    rw [extract, BitVec.toNat_and]
    exact Nat.and_le_right
  rw [toNat_maxValue] at hle
  omega

/-- Extracting looks at no other bits. -/
theorem extract_congr {raw' : BitVec 64} (h : ∀ i, f.Covers i → raw.getLsbD i = raw'.getLsbD i) :
    f.extract raw = f.extract raw' := by
  refine BitVec.eq_of_getLsbD_eq fun i _ => ?_
  rw [getLsbD_extract, getLsbD_extract]
  by_cases hi : i < f.width
  · have hcovers : f.Covers (f.offset + i) := ⟨by omega, by omega⟩
    rw [h _ hcovers]
  · simp [hi]

/-- A value is packed where the field has bits enough for it. -/
theorem pack_eq_ok_iff : f.pack raw value = .ok packed ↔
    value.toNat < 2 ^ f.width ∧ (raw &&& ~~~f.mask) ||| (value <<< f.offset) = packed := by
  have hpos : 0 < 2 ^ f.width := Nat.two_pow_pos f.width
  unfold pack
  rw [toNat_maxValue]
  by_cases h : value.toNat < 2 ^ f.width
  · rw [if_neg (by omega)]
    simp [h]
  · rw [if_pos (by omega)]
    simp [h]

theorem exists_pack (h : value.toNat < 2 ^ f.width) (raw : BitVec 64) :
    ∃ packed, f.pack raw value = .ok packed :=
  ⟨_, pack_eq_ok_iff.mpr ⟨h, rfl⟩⟩

theorem toNat_lt_of_pack (h : f.pack raw value = .ok packed) : value.toNat < 2 ^ f.width :=
  (pack_eq_ok_iff.mp h).1

/-- Packing sets the bits of the field and leaves the others as they are. -/
theorem getLsbD_pack (h : f.pack raw value = .ok packed) (i : Nat) :
    packed.getLsbD i = if f.Covers i then value.getLsbD (i - f.offset) else raw.getLsbD i := by
  obtain ⟨hvalue, rfl⟩ := pack_eq_ok_iff.mp h
  rw [BitVec.getLsbD_or, BitVec.getLsbD_and, BitVec.getLsbD_not, getLsbD_mask,
    BitVec.getLsbD_shiftLeft]
  by_cases hi : f.Covers i
  · have hlt : i < 64 := hi.lt
    have hge : ¬i < f.offset := Nat.not_lt.mpr hi.1
    simp [hi, hlt, hge]
  · have hshifted : (decide (i < 64) && !decide (i < f.offset) && value.getLsbD (i - f.offset)) =
        false := by
      by_cases hlow : i < f.offset
      · simp [hlow]
      · -- above the field the value has no bits left
        have hhigh : f.width ≤ i - f.offset := by
          unfold Covers at hi
          omega
        have hbit : value.getLsbD (i - f.offset) = false :=
          Nat.testBit_lt_two_pow (Nat.lt_of_lt_of_le hvalue (Nat.pow_le_pow_right (by decide) hhigh))
        simp [hbit]
    rw [hshifted, if_neg hi]
    by_cases hlt : i < 64
    · simp [hi, hlt]
    · simp [BitVec.getLsbD_of_ge raw i (by omega)]

/-- What has been packed is what is extracted. -/
theorem extract_pack (h : f.pack raw value = .ok packed) : f.extract packed = value := by
  refine BitVec.eq_of_getLsbD_eq fun i _ => ?_
  rw [getLsbD_extract, getLsbD_pack h]
  by_cases hi : i < f.width
  · have hcovers : f.Covers (f.offset + i) := ⟨by omega, by omega⟩
    simp [hi, hcovers]
  · have hhigh : 2 ^ f.width ≤ 2 ^ i := Nat.pow_le_pow_right (by decide) (by omega)
    have hbit : value.getLsbD i = false :=
      Nat.testBit_lt_two_pow (Nat.lt_of_lt_of_le (toNat_lt_of_pack h) hhigh)
    simp [hi, hbit]

/-- A range of bits is in order if it is not empty, lies within the bits and holds the value of every
label. -/
theorem bitRangeFault?_eq_none_iff {name : String} {offset width bits : Nat} {labels : Option Labels} :
    bitRangeFault? name offset width labels bits = none ↔
      0 < width ∧ offset + width ≤ bits ∧ ∀ p ∈ labels.getD [], p.1.toNat < 2 ^ width := by
  unfold bitRangeFault?
  by_cases hwidth : width = 0
  · simp [hwidth]
  · by_cases hbits : bits < offset + width
    · have hnot : ¬offset + width ≤ bits := by omega
      simp [hwidth, hbits, hnot]
    · have hpos : 0 < width := by omega
      have hfits : offset + width ≤ bits := by omega
      rw [if_neg hwidth, if_neg hbits]
      cases hfind : (labels.getD []).find? fun p => 2 ^ width ≤ p.1.toNat with
      | some p =>
        have hmem := List.mem_of_find?_eq_some hfind
        have hlarge := List.find?_some hfind
        simp only [decide_eq_true_eq] at hlarge
        simp only [reduceCtorEq, false_iff]
        rintro ⟨-, -, hsmall⟩
        have := hsmall p hmem
        omega
      | none =>
        simpa [hpos, hfits] using hfind

theorem make_eq_ok (h : ∀ p ∈ f.labels.getD [], p.1.toNat < 2 ^ f.width) :
    make f.name f.offset f.width f.labels = .ok f := by
  have hfault : bitRangeFault? f.name f.offset f.width f.labels 64 = none :=
    bitRangeFault?_eq_none_iff.mpr ⟨f.width_pos, f.fits, h⟩
  unfold make
  rw [hfault]
  exact dif_pos ⟨f.width_pos, f.fits⟩

theorem fault?_eq_none_iff {bits : Nat} : f.fault? bits = none ↔
    f.offset + f.width ≤ bits ∧ ∀ p ∈ f.labels.getD [], p.1.toNat < 2 ^ f.width := by
  rw [fault?, bitRangeFault?_eq_none_iff]
  simp [f.width_pos]

theorem fits_of_fault? {bits : Nat} (h : f.fault? bits = none) : f.offset + f.width ≤ bits :=
  (fault?_eq_none_iff.mp h).1

/-- Fields overlap if they cover a bit in common. -/
theorem overlaps_eq_false_iff {f g : BitField} :
    f.overlaps g = false ↔ ∀ i, ¬(f.Covers i ∧ g.Covers i) := by
  have hbit (i : Nat) :
      (f.mask &&& g.mask).getLsbD i = (decide (f.Covers i) && decide (g.Covers i)) := by
    rw [BitVec.getLsbD_and, getLsbD_mask, getLsbD_mask]
  rw [overlaps, bne_eq_false_iff_eq]
  constructor
  · rintro hzero i ⟨hf, hg⟩
    have h := hbit i
    simp [hzero, hf, hg] at h
  · intro h
    refine BitVec.eq_of_getLsbD_eq fun i _ => ?_
    rw [hbit]
    by_cases hf : f.Covers i
    · have hg : ¬g.Covers i := fun hg => h i ⟨hf, hg⟩
      simp [hg]
    · simp [hf]

theorem overlaps_symm {f g : BitField} (h : f.overlaps g = false) : g.overlaps f = false :=
  overlaps_eq_false_iff.mpr fun i hi => overlaps_eq_false_iff.mp h i hi.symm

/-- Holds of fields that have different names and no bit in common. -/
def Apart (f g : BitField) : Prop := f.name ≠ g.name ∧ f.overlaps g = false

theorem Apart.symm {f g : BitField} (h : f.Apart g) : g.Apart f := ⟨h.1.symm, overlaps_symm h.2⟩

instance : Std.Symm Apart := ⟨fun _ _ => Apart.symm⟩

end Canopen.BitField
