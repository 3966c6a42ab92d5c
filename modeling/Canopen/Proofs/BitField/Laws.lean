import Canopen.Proofs.BitField.Words
import Canopen.Proofs.BitField.WriteBack
/-!
# The laws of bit fields

A field is to a pattern what a digit is to a number: it can be looked at by division, set by itself and
set again, and fields with no bit in common do not see one another. This holds of every field there is,
one of all 64 bits included, and no shift goes wrong in it (`BitField.arithmetic_lawful`).
-/
namespace Canopen.BitField

variable {f g : BitField} {raw value other packed : BitVec 64}

/-- Extracting divides by the place of the field and keeps the remainder. -/
theorem toNat_extract (f : BitField) (raw : BitVec 64) :
    (f.extract raw).toNat = raw.toNat / 2 ^ f.offset % 2 ^ f.width := by
  rw [extract, BitVec.toNat_and, BitVec.toNat_ushiftRight, toNat_maxValue, Nat.shiftRight_eq_div_pow,
    Nat.and_two_pow_sub_one_eq_mod]

theorem pack_of_le (h : 2 ^ f.width ≤ value.toNat) (raw : BitVec 64) :
    f.pack raw value = .error (.outOfRange (.integer value.toNat 0 f.maxValue.toNat)) := by
  have hpos : 0 < 2 ^ f.width := Nat.two_pow_pos f.width
  rw [pack, toNat_maxValue, if_pos (by omega)]

theorem exists_pack_iff (f : BitField) (raw value : BitVec 64) :
    (∃ packed, f.pack raw value = .ok packed) ↔ value.toNat < 2 ^ f.width :=
  ⟨fun ⟨_, h⟩ => toNat_lt_of_pack h, fun h => exists_pack h raw⟩

theorem exists_outOfRange_iff (f : BitField) (raw value : BitVec 64) :
    (∃ fault, f.pack raw value = .error (.outOfRange fault)) ↔ 2 ^ f.width ≤ value.toNat := by
  constructor
  · rintro ⟨fault, h⟩
    refine Nat.le_of_not_lt fun hless => ?_
    obtain ⟨packed, hpack⟩ := exists_pack hless raw
    rw [hpack] at h
    contradiction
  · intro h
    exact ⟨_, pack_of_le h raw⟩

/-- Of two values packed one after the other only the last one counts. -/
theorem pack_of_pack (h : f.pack raw value = .ok packed) (other : BitVec 64) :
    f.pack packed other = f.pack raw other := by
  by_cases hless : other.toNat < 2 ^ f.width
  · obtain ⟨twice, htwice⟩ := exists_pack hless packed
    obtain ⟨once, honce⟩ := exists_pack hless raw
    have hsame : twice = once := by
      refine BitVec.eq_of_getLsbD_eq fun i _ => ?_
      rw [getLsbD_pack htwice, getLsbD_pack honce, getLsbD_pack h]
      split <;> rfl
    rw [htwice, honce, hsame]
  · rw [pack_of_le (Nat.le_of_not_lt hless), pack_of_le (Nat.le_of_not_lt hless)]

section Apart

/-- Fields have no bit in common if one of them ends before the other one begins. -/
theorem overlaps_eq_false_iff_ranges :
    f.overlaps g = false ↔ f.offset + f.width ≤ g.offset ∨ g.offset + g.width ≤ f.offset := by
  have hf := f.width_pos
  have hg := g.width_pos
  rw [overlaps_eq_false_iff]
  unfold Covers
  constructor
  · intro hapart
    -- Were neither so, the first bit of the field that begins later would be a common one.
    have hfirst := hapart (max f.offset g.offset)
    omega
  · intro hranges i
    omega

/-- Packing a field changes nothing of one that it has no bit in common with. -/
theorem extract_of_pack_other (hapart : f.overlaps g = false) (h : f.pack raw value = .ok packed) :
    g.extract packed = g.extract raw := by
  refine extract_congr fun i hi => ?_
  have hnot : ¬f.Covers i := fun hf => overlaps_eq_false_iff.mp hapart i ⟨hf, hi⟩
  rw [getLsbD_pack h, if_neg hnot]

/-- Two fields without a bit in common can be packed in the other order as well. -/
theorem pack_comm (hapart : f.overlaps g = false) {first both : BitVec 64}
    (hfirst : f.pack raw value = .ok first) (hboth : g.pack first other = .ok both) :
    ∃ second, g.pack raw other = .ok second ∧ f.pack second value = .ok both := by
  obtain ⟨second, hsecond⟩ := exists_pack (toNat_lt_of_pack hboth) raw
  obtain ⟨swapped, hswapped⟩ := exists_pack (toNat_lt_of_pack hfirst) second
  have hsame : swapped = both := by
    refine BitVec.eq_of_getLsbD_eq fun i _ => ?_
    rw [getLsbD_pack hswapped, getLsbD_pack hsecond, getLsbD_pack hboth, getLsbD_pack hfirst]
    by_cases hf : f.Covers i
    · have hg : ¬g.Covers i := fun hg => overlaps_eq_false_iff.mp hapart i ⟨hf, hg⟩
      rw [if_pos hf, if_neg hg, if_pos hf]
    · rw [if_neg hf, if_neg hf]
  exact ⟨second, hsecond, by rw [hswapped, hsame]⟩

end Apart

/-- The laws of one field. -/
structure Lawful (f : BitField) : Prop where
  /-- Nothing is computed with a shift that there is not, or that loses a bit. -/
  shifts : ∀ raw value, f.checkedMask? = some f.mask ∧
    f.checkedExtract? raw = some (f.extract raw) ∧ f.checkedPack? raw value = some (f.pack raw value)
  accepts : ∀ raw value, (∃ packed, f.pack raw value = .ok packed) ↔ value.toNat < 2 ^ f.width
  refuses : ∀ raw value,
    (∃ fault, f.pack raw value = .error (.outOfRange fault)) ↔ 2 ^ f.width ≤ value.toNat
  gets : ∀ raw value packed, f.pack raw value = .ok packed → f.extract packed = value
  keeps : ∀ raw value packed, f.pack raw value = .ok packed →
    ∀ i, ¬f.Covers i → packed.getLsbD i = raw.getLsbD i
  puts : ∀ raw, f.pack raw (f.extract raw) = .ok raw
  /-- The last value counts. -/
  last : ∀ raw value packed, f.pack raw value = .ok packed →
    ∀ other, f.pack packed other = f.pack raw other
  divides : ∀ raw, (f.extract raw).toNat = raw.toNat / 2 ^ f.offset % 2 ^ f.width

theorem lawful (f : BitField) : f.Lawful where
  shifts raw value := ⟨f.checkedMask?_eq, f.checkedExtract?_eq raw, f.checkedPack?_eq raw value⟩
  accepts := f.exists_pack_iff
  refuses := f.exists_outOfRange_iff
  gets _ _ _ := extract_pack
  keeps _ _ _ h i hi := by rw [getLsbD_pack h, if_neg hi]
  puts := f.pack_extract
  last _ _ _ h := pack_of_pack h
  divides := f.toNat_extract

/-- The laws of two fields that do not see one another. -/
structure Independent (f g : BitField) : Prop where
  spares : ∀ raw value packed, f.pack raw value = .ok packed → g.extract packed = g.extract raw
  spared : ∀ raw value packed, g.pack raw value = .ok packed → f.extract packed = f.extract raw
  commutes : ∀ raw value other both,
    (∃ first, f.pack raw value = .ok first ∧ g.pack first other = .ok both) ↔
      ∃ second, g.pack raw other = .ok second ∧ f.pack second value = .ok both

theorem independent (hapart : f.overlaps g = false) : f.Independent g where
  spares _ _ _ := extract_of_pack_other hapart
  spared _ _ _ := extract_of_pack_other (overlaps_symm hapart)
  commutes _ _ _ _ :=
    ⟨fun ⟨_, hfirst, hboth⟩ => pack_comm hapart hfirst hboth,
      fun ⟨_, hsecond, hboth⟩ => pack_comm (overlaps_symm hapart) hsecond hboth⟩

theorem exists_make_iff (name : String) (offset width : Nat) (labels : Option Labels) :
    (∃ f, make name offset width labels = .ok f ∧ f.offset = offset ∧ f.width = width) ↔
      0 < width ∧ offset + width ≤ 64 ∧ ∀ p ∈ labels.getD [], p.1.toNat < 2 ^ width := by
  constructor
  · rintro ⟨f, hmake, -⟩
    unfold make at hmake
    split at hmake
    · contradiction
    · exact bitRangeFault?_eq_none_iff.mp ‹_›
  · rintro ⟨hpos, hfits, hlabels⟩
    let f : BitField := ⟨name, offset, width, labels, hpos, hfits⟩
    exact ⟨f, f.make_eq_ok hlabels, rfl, rfl⟩

/-- A field can be made of every range of bits within 64 that is not empty and holds the values of its
labels, and of no other; to tell, no shift goes wrong. Every field keeps the laws, and so do any two of
which one ends before the other one begins, which is told from their bits. -/
theorem arithmetic_lawful :
    (∀ name offset width labels,
      checkedRangeFault? name offset width labels 64 =
        some (bitRangeFault? name offset width labels 64) ∧
      ((∃ f, make name offset width labels = .ok f ∧ f.offset = offset ∧ f.width = width) ↔
        0 < width ∧ offset + width ≤ 64 ∧ ∀ p ∈ labels.getD [], p.1.toNat < 2 ^ width)) ∧
    (∀ f : BitField, f.Lawful) ∧
    ∀ f g : BitField, f.checkedOverlaps? g = some (f.overlaps g) ∧
      (f.overlaps g = false ↔ f.offset + f.width ≤ g.offset ∨ g.offset + g.width ≤ f.offset) ∧
      (f.overlaps g = false → f.Independent g) := by
  refine ⟨fun name offset width labels => ⟨?_, ?_⟩, ?_, fun f g => ⟨?_, ?_, ?_⟩⟩
  · exact checkedRangeFault?_eq (Nat.le_refl 64)
  · exact exists_make_iff name offset width labels
  · exact lawful
  · exact checkedOverlaps?_eq f g
  · exact overlaps_eq_false_iff_ranges
  · exact independent

theorem arithmetic_lawful_wholeWord :
    (⟨"whole", 0, 64, none, by decide, by decide⟩ : BitField).Lawful ∧
    (⟨"low", 0, 4, none, by decide, by decide⟩ : BitField).Independent
      ⟨"high", 4, 60, none, by decide, by decide⟩ :=
  ⟨arithmetic_lawful.2.1 _, (arithmetic_lawful.2.2 _ _).2.2 (by decide)⟩

end Canopen.BitField
