import Canopen.Proofs.Entry.Fields
import Mathlib.Data.List.Pairwise
/-!
# Bit fields as lenses

The bit fields of an entry are read from its bytes and set in them one by one. What has been set is
what is read, in whatever bytes it has been set; setting what is read changes nothing; and fields do
not come in each other's way, since they have no bit in common (`Entry.isLens_of_mem`).
-/
namespace Canopen

/-- Bytes of the same number are the same if all their bits are. -/
theorem Bytes.eq_of_testBit {a b : List UInt8} (hlength : a.length = b.length)
    (h : ∀ i, (toNat a).testBit i = (toNat b).testBit i) : a = b := by
  rw [← littleEndian_toNat a, ← littleEndian_toNat b, hlength, Nat.eq_of_testBit_eq h]

/-- In a list of things no two of which have the same key, the first one with a key is the only one. -/
theorem find?_eq_some_iff_of_distinct {α κ : Type} [DecidableEq κ] {key : α → κ} {l : List α} {k : κ}
    {a : α} (h : l.Pairwise fun x y => key x ≠ key y) :
    l.find? (fun x => key x = k) = some a ↔ a ∈ l ∧ key a = k := by
  induction l with
  | nil => simp
  | cons x rest ih =>
    obtain ⟨hx, hrest⟩ := List.pairwise_cons.mp h
    by_cases hk : key x = k
    · rw [List.find?_cons_of_pos (by simpa using hk), List.mem_cons, Option.some.injEq]
      constructor
      · rintro rfl
        exact ⟨.inl rfl, hk⟩
      · rintro ⟨rfl | ha, hak⟩
        · rfl
        · exact absurd (hk.trans hak.symm) (hx a ha)
    · rw [List.find?_cons_of_neg (by simpa using hk), ih hrest, List.mem_cons]
      constructor
      · rintro ⟨ha, hak⟩
        exact ⟨.inr ha, hak⟩
      · rintro ⟨rfl | ha, hak⟩
        · exact absurd hak hk
        · exact ⟨ha, hak⟩

namespace BitField

variable {f : BitField} {input : FieldInput}

/-- Holds of the inputs that a field takes: numbers up to its largest value and its labels. -/
def Accepts (f : BitField) : FieldInput → Prop
  | .raw value => value.toNat ≤ f.maxValue.toNat
  | .label label => ∃ labels value, f.labels = some labels ∧ (value, label) ∈ labels

/-- An accepted input stands for a value that the field can hold, since its labels do. -/
theorem exists_resolve_of_accepts {bits : Nat} (hfault : f.fault? bits = none)
    (h : f.Accepts input) :
    ∃ value, f.resolve input = .ok value ∧ value.toNat < 2 ^ f.width := by
  cases input with
  | raw value =>
    have hpos : 0 < 2 ^ f.width := Nat.two_pow_pos f.width
    have hle : value.toNat ≤ 2 ^ f.width - 1 := by
      rw [← toNat_maxValue]
      exact h
    exact ⟨value, rfl, by omega⟩
  | label label =>
    obtain ⟨labels, value, hlabels, hmem⟩ := h
    have hsome : (labels.find? fun p => p.2 == label).isSome := by
      rw [List.find?_isSome]
      exact ⟨_, hmem, by simp⟩
    obtain ⟨p, hp⟩ := Option.isSome_iff_exists.mp hsome
    have hvalue : f.valueOf? label = some p.1 := by
      rw [valueOf?, hlabels, Option.bind_some, Labels.valueOf?, hp, Option.map_some]
    have hsmall := (fault?_eq_none_iff.mp hfault).2 p
    rw [hlabels] at hsmall
    exact ⟨p.1, by rw [resolve, hvalue], hsmall (List.mem_of_find?_eq_some hp)⟩

end BitField

namespace Entry

variable {e : Entry} {f g : BitField} {w : IntWidth} {input : FieldInput} {raw value other : BitVec 64}
  {data packed both both' : List UInt8}

namespace SetsField

/-- Where a field has the same bits as before, nothing has changed. -/
theorem eq_of_kept (h : SetsField f value data packed)
    (hkept : ∀ i, f.Covers i → value.getLsbD (i - f.offset) = (Bytes.toNat data).testBit i) :
    packed = data := by
  refine Bytes.eq_of_testBit h.length_eq fun i => ?_
  by_cases hi : f.Covers i
  · rw [h.inside i hi, hkept i hi]
  · exact h.outside i hi

/-- Two fields without a common bit can be set in either order. -/
theorem eq_of_disjoint {packed' : List UInt8} (hdisjoint : ∀ i, ¬(f.Covers i ∧ g.Covers i))
    (hf : SetsField f value data packed) (hg : SetsField g other packed both)
    (hg' : SetsField g other data packed') (hf' : SetsField f value packed' both') :
    both = both' := by
  have hlength : both.length = both'.length := by
    rw [hg.length_eq, hf.length_eq, hf'.length_eq, hg'.length_eq]
  refine Bytes.eq_of_testBit hlength fun i => ?_
  by_cases hif : f.Covers i
  · have hig : ¬g.Covers i := fun hig => hdisjoint i ⟨hif, hig⟩
    rw [hg.outside i hig, hf.inside i hif, hf'.inside i hif]
  · by_cases hig : g.Covers i
    · rw [hg.inside i hig, hf'.outside i hif, hg'.inside i hig]
    · rw [hg.outside i hig, hf.outside i hif, hf'.outside i hif, hg'.outside i hig]

end SetsField

/-- A field of an entry is found by its name, which no other field has. -/
theorem field_of_mem (hf : f ∈ e.fields) : e.field f.name = .ok f := by
  obtain ⟨w, -, -, hapart⟩ := exists_fields hf
  have hnames : e.fields.Pairwise fun x y => x.name ≠ y.name := hapart.imp fun h => h.1
  have hfind := (find?_eq_some_iff_of_distinct (k := f.name) hnames).mpr ⟨hf, rfl⟩
  simp only [field, hfind]

theorem disjoint_of_ne (hf : f ∈ e.fields) (hg : g ∈ e.fields) (hne : g ≠ f) :
    ∀ i, ¬(f.Covers i ∧ g.Covers i) := by
  obtain ⟨w, -, -, hapart⟩ := exists_fields hf
  exact BitField.overlaps_eq_false_iff.mp (hapart.forall hf hg hne.symm).2

theorem exists_rawBits (hw : e.type.intWidth? = some w) (hlength : data.length = w.bytes) :
    ∃ raw, e.type.rawBits data = .ok raw :=
  ⟨_, (DataType.rawBits_eq_ok_iff hw).mpr ⟨hlength, rfl⟩⟩

/-- A field is read from the pattern of the bytes. -/
theorem extractField_of_rawBits (hf : f ∈ e.fields) (hraw : e.type.rawBits data = .ok raw) :
    e.extractField f.name data = .ok (f.describe raw) := by
  simp only [extractField, field_of_mem hf, hraw, bind, Except.bind, pure, Except.pure]

/-- In bytes of the right number an accepted input can be set. -/
theorem exists_packField (hf : f ∈ e.fields) (hw : e.type.intWidth? = some w)
    (hlength : data.length = w.bytes) (hvalue : f.resolve input = .ok value)
    (hsmall : value.toNat < 2 ^ f.width) :
    ∃ packed, e.packField f.name data input = .ok packed ∧ SetsField f value data packed ∧
      e.extractField f.name packed = .ok ⟨value, f.labelOf? value⟩ := by
  obtain ⟨bits, hbits⟩ := BitField.exists_pack hsmall (BitVec.ofNat 64 (Bytes.toNat data))
  have hinput := BitField.packInput_eq_ok_iff.mpr ⟨value, hvalue, hbits⟩
  have hpacked : e.packField f.name data input =
      .ok (Bytes.littleEndian w.bytes bits.toNat) := by
    rw [packField_of_length (field_of_mem hf) hw hlength, hinput, Except.map]
  obtain ⟨f', value', hf', hvalue', hsets, hextract⟩ := packField_spec hpacked
  cases (field_of_mem hf).symm.trans hf'
  cases hvalue.symm.trans hvalue'
  exact ⟨_, hpacked, hsets, hextract⟩

/-- Setting a field is not seen by the others. -/
theorem extractField_of_setsField (hf : f ∈ e.fields) (hg : g ∈ e.fields) (hne : g ≠ f)
    (hw : e.type.intWidth? = some w) (hlength : data.length = w.bytes)
    (hsets : SetsField f value data packed) :
    e.extractField g.name packed = e.extractField g.name data := by
  obtain ⟨raw, hraw⟩ := exists_rawBits hw hlength
  obtain ⟨raw', hraw'⟩ := exists_rawBits hw (hsets.length_eq.trans hlength)
  have hsame : g.extract raw' = g.extract raw := by
    refine BitField.extract_congr fun i hi => ?_
    rw [DataType.getLsbD_of_rawBits hraw, DataType.getLsbD_of_rawBits hraw']
    exact hsets.outside i fun hif => disjoint_of_ne hf hg hne i ⟨hif, hi⟩
  rw [extractField_of_rawBits hg hraw, extractField_of_rawBits hg hraw', BitField.describe,
    BitField.describe, hsame]

/-- Holds of a field of an entry whose values have `size` bytes if it can be read and set in any bytes
of this number, and in no others. -/
structure IsLens (e : Entry) (f : BitField) (size : Nat) : Prop where
  /-- An accepted input is set, which is seen in the field and nowhere else. -/
  set : ∀ data input, data.length = size → f.Accepts input → ∃ value packed,
    f.resolve input = .ok value ∧ e.packField f.name data input = .ok packed ∧
      SetsField f value data packed ∧ e.extractField f.name packed = .ok ⟨value, f.labelOf? value⟩ ∧
        ∀ g ∈ e.fields, g ≠ f → e.extractField g.name packed = e.extractField g.name data
  /-- Setting what is read changes nothing. -/
  restore : ∀ data, data.length = size → ∃ v, e.extractField f.name data = .ok v ∧
    e.packField f.name data (.raw v.raw) = .ok data
  /-- Another field can be set before or afterwards. -/
  commute : ∀ g ∈ e.fields, g ≠ f → ∀ data input other, data.length = size → f.Accepts input →
    g.Accepts other → ∃ both,
      (e.packField f.name data input >>= fun packed => e.packField g.name packed other) = .ok both ∧
      (e.packField g.name data other >>= fun packed => e.packField f.name packed input) = .ok both
  /-- Bytes of another number are malformed. -/
  refuse : ∀ data, data.length ≠ size →
    e.extractField f.name data = .error (.malformed e.type (.wrongLength size data.length)) ∧
      ∀ input, e.packField f.name data input =
        .error (.malformed e.type (.wrongLength size data.length))

/-- Every bit field of an entry is a lens on the bytes of the entry. -/
theorem isLens_of_mem (e : Entry) {f : BitField} (hf : f ∈ e.fields) :
    ∃ size, e.type.byteSize? = some size ∧ e.IsLens f size := by
  obtain ⟨w, hw, hfaults, -⟩ := exists_fields hf
  refine ⟨w.bytes, DataType.byteSize?_of_intWidth? hw, ?_⟩
  constructor
  case set =>
    intro data input hlength haccepts
    obtain ⟨value, hvalue, hsmall⟩ := BitField.exists_resolve_of_accepts (hfaults f hf) haccepts
    obtain ⟨packed, hpacked, hsets, hextract⟩ := exists_packField hf hw hlength hvalue hsmall
    exact ⟨value, packed, hvalue, hpacked, hsets, hextract,
      fun g hg hne => extractField_of_setsField hf hg hne hw hlength hsets⟩
  case restore =>
    intro data hlength
    obtain ⟨raw, hraw⟩ := exists_rawBits hw hlength
    have hvalue : f.resolve (.raw (f.extract raw)) = .ok (f.extract raw) := rfl
    obtain ⟨packed, hpacked, hsets, -⟩ :=
      exists_packField hf hw hlength hvalue (f.toNat_extract_lt raw)
    have hsame : packed = data := hsets.eq_of_kept fun i ⟨hlow, hhigh⟩ => by
      have hin : i - f.offset < f.width := by omega
      rw [BitField.getLsbD_extract, Nat.add_sub_cancel' hlow, DataType.getLsbD_of_rawBits hraw]
      simp [hin]
    rw [hsame] at hpacked
    exact ⟨_, extractField_of_rawBits hf hraw, hpacked⟩
  case commute =>
    intro g hg hne data input other hlength hinput hother
    obtain ⟨value, hvalue, hsmall⟩ := BitField.exists_resolve_of_accepts (hfaults f hf) hinput
    obtain ⟨value', hvalue', hsmall'⟩ := BitField.exists_resolve_of_accepts (hfaults g hg) hother
    obtain ⟨packed, hpacked, hsets, -⟩ := exists_packField hf hw hlength hvalue hsmall
    obtain ⟨packed', hpacked', hsets', -⟩ := exists_packField hg hw hlength hvalue' hsmall'
    obtain ⟨both, hboth, hsetsBoth, -⟩ :=
      exists_packField hg hw (hsets.length_eq.trans hlength) hvalue' hsmall'
    obtain ⟨both', hboth', hsetsBoth', -⟩ :=
      exists_packField hf hw (hsets'.length_eq.trans hlength) hvalue hsmall
    have hsame : both = both' :=
      hsets.eq_of_disjoint (disjoint_of_ne hf hg hne) hsetsBoth hsets' hsetsBoth'
    refine ⟨both, bind_eq_ok_iff.mpr ⟨packed, hpacked, hboth⟩, ?_⟩
    rw [hsame]
    exact bind_eq_ok_iff.mpr ⟨packed', hpacked', hboth'⟩
  case refuse =>
    intro data hlength
    have hraw : e.type.rawBits data =
        .error (.malformed e.type (.wrongLength w.bytes data.length)) := by
      rw [DataType.rawBits, hw]
      exact if_neg hlength
    refine ⟨?_, fun input => ?_⟩
    · simp only [extractField, field_of_mem hf, hraw, bind, Except.bind]
    · simp only [packField, field_of_mem hf, hraw, bind, Except.bind]

/-- A field with labels in a word with a sign, which another field shares. -/
theorem isLens_mode :
    let mode : BitField := ⟨"mode", 1, 3, some [(2, "run"), (5, "test")], by decide, by decide⟩
    let top : BitField := ⟨"top", 12, 4, none, by decide, by decide⟩
    let e : Entry :=
      { address := ⟨0x2000, 1⟩, name := "status", type := .signed .w16, fields := [mode, top] }
    mode ∈ e.fields ∧ (∃ size, e.type.byteSize? = some size ∧ e.IsLens mode size) ∧
      e.packField "mode" [0x05, 0x80] (.label "test") = .ok [0x0B, 0x80] := by
  exact ⟨.head _, isLens_of_mem _ (.head _), by rfl⟩

end Entry

end Canopen
