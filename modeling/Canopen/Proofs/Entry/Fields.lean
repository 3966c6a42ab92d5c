import Canopen.Proofs.BitField.Bits
import Canopen.Proofs.Entry.Errors
/-!
# Setting a bit field in the bytes of an entry

The bits of an entry's bytes are numbered from the first byte on, the lowest first. A field lies
within the bytes of the entry it belongs to (`Entry.exists_fits_of_field`), so that setting it keeps
their number and every bit that it does not cover, and the value is read back from the bytes
(`Entry.packField_spec`).
-/
namespace Canopen

open Text

namespace DataType

variable {t : DataType} {w : IntWidth} {data : List UInt8} {raw : BitVec 64}

theorem toNat_lt_of_length (h : data.length = w.bytes) : Bytes.toNat data < 2 ^ w.bits := by
  rw [w.two_pow_bits, ← h]
  exact Bytes.toNat_lt data

/-- Behind the last byte there are no bits. -/
theorem testBit_of_length (h : data.length = w.bytes) {i : Nat} (hi : w.bits ≤ i) :
    (Bytes.toNat data).testBit i = false := by
  have hpow : 2 ^ w.bits ≤ 2 ^ i := Nat.pow_le_pow_right (by decide) hi
  exact Nat.testBit_lt_two_pow (Nat.lt_of_lt_of_le (toNat_lt_of_length h) hpow)

/-- The pattern has the bits of the bytes. -/
theorem getLsbD_of_rawBits (h : t.rawBits data = .ok raw) (i : Nat) :
    raw.getLsbD i = (Bytes.toNat data).testBit i := by
  obtain ⟨w, hw⟩ := exists_intWidth_of_rawBits h
  obtain ⟨hlength, rfl⟩ := (rawBits_eq_ok_iff hw).mp h
  have hpow : 2 ^ w.bits ≤ 2 ^ 64 := Nat.pow_le_pow_right (by decide) w.bits_le
  have hlt : Bytes.toNat data < 2 ^ 64 := Nat.lt_of_lt_of_le (toNat_lt_of_length hlength) hpow
  rw [BitVec.getLsbD, BitVec.toNat_ofNat, Nat.mod_eq_of_lt hlt]

theorem ofRawBits_eq (hw : t.intWidth? = some w) (bits : BitVec 64) :
    t.ofRawBits bits = .ok (Bytes.littleEndian w.bytes bits.toNat) := by
  rw [ofRawBits, hw]

/-- The bytes have as many of the bits of a pattern as there is room for. -/
theorem testBit_littleEndian (w : IntWidth) (bits : BitVec 64) (i : Nat) :
    (Bytes.toNat (Bytes.littleEndian w.bytes bits.toNat)).testBit i =
      (decide (i < w.bits) && bits.getLsbD i) := by
  rw [Bytes.toNat_littleEndian, ← w.two_pow_bits, Nat.testBit_mod_two_pow, BitVec.getLsbD]

end DataType

namespace Entry

variable {e : Entry} {name : String} {f : BitField} {input : FieldInput} {data packed : List UInt8}

theorem Draft.fieldFault?_eq_none_iff {d : Draft} {bits : Nat} {earlier : List BitField} :
    d.fieldFault? bits earlier f = none ↔ f.fault? bits = none ∧ ∀ x ∈ earlier, x.Apart f := by
  have hother (x : BitField) :
      (if x.name = f.name then some (DefinitionFault.duplicateField d.text f.name)
        else if x.overlaps f then some (.overlappingFields d.text x.name f.name) else none) = none ↔
      x.Apart f := by
    unfold BitField.Apart
    by_cases hname : x.name = f.name <;> simp [hname]
  unfold fieldFault?
  cases f.fault? bits with
  | some fault => simp
  | none => simp only [List.findSome?_eq_none_iff, hother, true_and]

/-- The fields are in order if each is so by itself and apart from all that come before it. -/
theorem Draft.fieldsFault?_eq_none_iff {d : Draft} {bits : Nat} {earlier fields : List BitField} :
    d.fieldsFault? bits earlier fields = none ↔
      (∀ f ∈ fields, f.fault? bits = none) ∧ fields.Pairwise BitField.Apart ∧
        ∀ x ∈ earlier, ∀ f ∈ fields, x.Apart f := by
  induction fields generalizing earlier with
  | nil => simp [fieldsFault?]
  | cons first rest ih =>
    rw [fieldsFault?]
    cases hfirst : d.fieldFault? bits earlier first with
    | some fault =>
      have hnot : ¬(first.fault? bits = none ∧ ∀ x ∈ earlier, x.Apart first) := fun h => by
        rw [fieldFault?_eq_none_iff.mpr h] at hfirst
        contradiction
      simp only [reduceCtorEq, false_iff]
      rintro ⟨hfault, -, hapart⟩
      exact hnot ⟨hfault first (.head rest), fun x hx => hapart x hx first (.head rest)⟩
    | none =>
      obtain ⟨hfault, hapart⟩ := fieldFault?_eq_none_iff.mp hfirst
      -- the fields after the first one are held against it as well
      simp only [ih, List.mem_append, List.mem_singleton, List.forall_mem_cons,
        List.pairwise_cons]
      constructor
      · rintro ⟨hfaults, hpairs, hearlier⟩
        exact ⟨⟨hfault, hfaults⟩, ⟨fun y hy => hearlier first (.inr rfl) y hy, hpairs⟩,
          fun x hx => ⟨hapart x hx, fun y hy => hearlier x (.inl hx) y hy⟩⟩
      · rintro ⟨⟨-, hfaults⟩, ⟨hfirsts, hpairs⟩, hearlier⟩
        refine ⟨hfaults, hpairs, fun x hx y hy => ?_⟩
        rcases hx with hx | rfl
        · exact (hearlier x hx).2 y hy
        · exact hfirsts y hy

/-- A draft is in order if its name is not blank and its fields are in order within the bits of an
integer; without fields it can have any type. -/
theorem Draft.fault?_eq_none_iff {d : Draft} : d.fault? = none ↔
    trimChars d.name.toList ≠ [] ∧ (d.fields = [] ∨ ∃ w, d.type.intWidth? = some w ∧
      (∀ f ∈ d.fields, f.fault? w.bits = none) ∧ d.fields.Pairwise BitField.Apart) := by
  unfold fault?
  by_cases hname : trimChars d.name.toList = []
  · simp [hname]
  · by_cases hfields : d.fields = []
    · simp [hname, hfields]
    · rw [if_neg hname, if_neg hfields, DataType.bitWidth?]
      cases d.type.intWidth? with
      | none => simp [hfields]
      | some w => simp [hname, hfields, fieldsFault?_eq_none_iff]

theorem build_eq_ok {d : Draft} (h : d.fault? = none) : build d = .ok ⟨d, h⟩ := by
  unfold build
  split
  · rename_i fault hfault
    rw [h] at hfault
    contradiction
  · rfl

/-- Only integers have bit fields. Each of these is in order within their bits, and they are apart from
one another. -/
theorem exists_fields (hf : f ∈ e.fields) : ∃ w, e.type.intWidth? = some w ∧
    (∀ g ∈ e.fields, g.fault? w.bits = none) ∧ e.fields.Pairwise BitField.Apart := by
  rcases (Draft.fault?_eq_none_iff.mp e.valid).2 with hnone | hfields
  · rw [hnone] at hf
    contradiction
  · exact hfields

/-- A field lies within the bits of the entry. -/
theorem exists_fits_of_field (h : e.field name = .ok f) :
    ∃ w, e.type.intWidth? = some w ∧ f.offset + f.width ≤ w.bits := by
  obtain ⟨w, hw, hfaults, -⟩ := exists_fields (mem_of_field h)
  exact ⟨w, hw, BitField.fits_of_fault? (hfaults f (mem_of_field h))⟩

theorem exists_of_packField (h : e.packField name data input = .ok packed) :
    ∃ f raw value bits, e.field name = .ok f ∧ e.type.rawBits data = .ok raw ∧
      f.resolve input = .ok value ∧ f.pack raw value = .ok bits ∧
        e.type.ofRawBits bits = .ok packed := by
  obtain ⟨f, hf, h⟩ := bind_eq_ok_iff.mp h
  obtain ⟨raw, hraw, h⟩ := bind_eq_ok_iff.mp h
  obtain ⟨bits, hbits, h⟩ := bind_eq_ok_iff.mp h
  obtain ⟨value, hvalue, hpack⟩ := BitField.packInput_eq_ok_iff.mp hbits
  exact ⟨f, raw, value, bits, hf, hraw, hvalue, hpack, h⟩

/-- In bytes of the right number only the packing itself can go wrong. -/
theorem packField_of_length {w : IntWidth} (hf : e.field name = .ok f) (hw : e.type.intWidth? = some w)
    (hlength : data.length = w.bytes) :
    e.packField name data input = (f.packInput (BitVec.ofNat 64 (Bytes.toNat data)) input).map
      fun bits => Bytes.littleEndian w.bytes bits.toNat := by
  have hraw := (DataType.rawBits_eq_ok_iff hw).mpr ⟨hlength, rfl⟩
  simp only [packField, hf, hraw, bind, Except.bind]
  cases f.packInput (BitVec.ofNat 64 (Bytes.toNat data)) input with
  | error err => rfl
  | ok bits => exact DataType.ofRawBits_eq hw bits

/-- Holds of bytes before and after a field has been set to a value in them. -/
structure SetsField (f : BitField) (value : BitVec 64) (before after : List UInt8) : Prop where
  length_eq : after.length = before.length
  inside : ∀ i, f.Covers i → (Bytes.toNat after).testBit i = value.getLsbD (i - f.offset)
  outside : ∀ i, ¬f.Covers i → (Bytes.toNat after).testBit i = (Bytes.toNat before).testBit i

/-- Packing an input sets the field to the value that the input stands for, which is what extracting
the field gives afterwards. -/
theorem packField_spec (h : e.packField name data input = .ok packed) :
    ∃ f value, e.field name = .ok f ∧ f.resolve input = .ok value ∧
      SetsField f value data packed ∧
        e.extractField name packed = .ok ⟨value, f.labelOf? value⟩ := by
  obtain ⟨f, raw, value, bits, hf, hraw, hvalue, hbits, hpacked⟩ := exists_of_packField h
  obtain ⟨w, hw, hfits⟩ := exists_fits_of_field hf
  rw [DataType.ofRawBits_eq hw, Except.ok.injEq] at hpacked
  have hlength : packed.length = w.bytes := by
    rw [← hpacked, Bytes.length_littleEndian]
  have hlengths := ((DataType.rawBits_eq_ok_iff hw).mp hraw).1
  have hbit (i : Nat) : (Bytes.toNat packed).testBit i = (decide (i < w.bits) && bits.getLsbD i) := by
    rw [← hpacked, DataType.testBit_littleEndian]
  have hcovered {i : Nat} (hi : f.Covers i) : i < w.bits := Nat.lt_of_lt_of_le hi.2 hfits
  refine ⟨f, value, hf, hvalue, ⟨hlength.trans hlengths.symm, fun i hi => ?_, fun i hi => ?_⟩, ?_⟩
  · rw [hbit, BitField.getLsbD_pack hbits, if_pos hi]
    simp [hcovered hi]
  · rw [hbit, BitField.getLsbD_pack hbits, if_neg hi, DataType.getLsbD_of_rawBits hraw]
    by_cases hlow : i < w.bits
    · simp [hlow]
    · have hnone := DataType.testBit_of_length hlengths (Nat.not_lt.mp hlow)
      simp [hlow, hnone]
  · have hagain := (DataType.rawBits_eq_ok_iff hw).mpr ⟨hlength, rfl⟩
    have hextract : f.extract (BitVec.ofNat 64 (Bytes.toNat packed)) = value := by
      rw [← BitField.extract_pack hbits]
      refine BitField.extract_congr fun i hi => ?_
      rw [DataType.getLsbD_of_rawBits hagain, hbit]
      simp [hcovered hi]
    simp only [extractField, hf, hagain, bind, Except.bind, pure, Except.pure, BitField.describe,
      hextract]

end Entry

end Canopen
