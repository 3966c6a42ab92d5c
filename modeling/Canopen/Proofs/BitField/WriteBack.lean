import Canopen.Proofs.BitField.Bits
import Canopen.Proofs.BitField.Labels
/-!
# Writing back the label that was read

Values of a bit field can share a label, which then stands for the least of them. So a label that was
read in a pattern can always be written back, but it sets the field to that least value, and nothing
changes exactly if the field had this value already (`BitField.unchanged_iff_least`).
-/
namespace Canopen

namespace Labels

variable {labels : Labels} {value : BitVec 64} {label : String}

/-- In labels that are in order every value has the label that is listed for it. -/
theorem labelOf?_of_mem (h : Rising labels) (hmem : (value, label) ∈ labels) :
    labels.labelOf? value = some label := by
  induction labels with
  | nil => contradiction
  | cons p rest ih =>
    obtain ⟨hfirst, hrest⟩ := List.pairwise_cons.mp h
    rcases List.mem_cons.mp hmem with rfl | hmem
    · simp [labelOf?]
    · have hless := hfirst _ hmem
      have hne : p.1 ≠ value := by
        rintro rfl
        exact Nat.lt_irrefl _ hless
      have hskip : labelOf? (p :: rest) value = labelOf? rest value := by simp [labelOf?, hne]
      rw [hskip]
      exact ih hrest hmem

/-- A label stands for the least value that it is listed for. -/
theorem exists_valueOf?_of_mem (h : Rising labels) (hmem : (value, label) ∈ labels) :
    ∃ least, labels.valueOf? label = some least ∧ (least, label) ∈ labels ∧
      ∀ v, (v, label) ∈ labels → least.toNat ≤ v.toNat := by
  induction labels with
  | nil => contradiction
  | cons p rest ih =>
    obtain ⟨first, l⟩ := p
    obtain ⟨hfirst, hrest⟩ := List.pairwise_cons.mp h
    by_cases hl : l = label
    · subst hl
      refine ⟨first, by simp [valueOf?], .head rest, fun v hv => ?_⟩
      rcases List.mem_cons.mp hv with hv | hv
      · cases hv
        exact Nat.le_refl _
      · exact Nat.le_of_lt (hfirst _ hv)
    · have hother (v : BitVec 64) (hv : (v, label) ∈ (first, l) :: rest) : (v, label) ∈ rest := by
        rcases List.mem_cons.mp hv with hv | hv
        · cases hv
          exact absurd rfl hl
        · exact hv
      obtain ⟨least, hleast, hlisted, hbelow⟩ := ih hrest (hother value hmem)
      refine ⟨least, ?_, .tail _ hlisted, fun v hv => hbelow v (hother v hv)⟩
      have hskip : valueOf? ((first, l) :: rest) label = valueOf? rest label := by simp [valueOf?, hl]
      rw [hskip]
      exact hleast

end Labels

namespace BitField

variable {f : BitField} {raw value packed : BitVec 64} {label : String}

/-- Packing what is extracted changes nothing. -/
theorem pack_extract (f : BitField) (raw : BitVec 64) : f.pack raw (f.extract raw) = .ok raw := by
  obtain ⟨packed, hpack⟩ := exists_pack (f.toNat_extract_lt raw) raw
  rw [hpack, Except.ok.injEq]
  refine BitVec.eq_of_getLsbD_eq fun i _ => ?_
  rw [getLsbD_pack hpack]
  split
  · rename_i hi
    have hin : i - f.offset < f.width := by
      unfold Covers at hi
      omega
    rw [getLsbD_extract, Nat.add_sub_cancel' hi.1]
    simp [hin]
  · rfl

/-- Holds of the least value of a field with a label. -/
def IsLeastOf (f : BitField) (label : String) (value : BitVec 64) : Prop :=
  f.labelOf? value = some label ∧ ∀ v, f.labelOf? v = some label → value.toNat ≤ v.toNat

theorem IsLeastOf.unique {other : BitVec 64} (h : f.IsLeastOf label value)
    (h' : f.IsLeastOf label other) : value = other :=
  BitVec.eq_of_toNat_eq (Nat.le_antisymm (h.2 other h'.1) (h'.2 value h.1))

/-- A label that some value has stands for the least of these. -/
theorem exists_isLeastOf (h : f.Made) (hlabel : f.labelOf? value = some label) :
    ∃ least, f.valueOf? label = some least ∧ f.IsLeastOf label least := by
  obtain ⟨labels, hlabels, hvalue⟩ := Option.bind_eq_some_iff.mp hlabel
  have hrising := h.rising labels hlabels
  obtain ⟨least, hleast, hlisted, hbelow⟩ :=
    Labels.exists_valueOf?_of_mem hrising (Labels.mem_of_labelOf? hvalue)
  refine ⟨least, Option.bind_eq_some_iff.mpr ⟨labels, hlabels, hleast⟩,
    Option.bind_eq_some_iff.mpr ⟨labels, hlabels, Labels.labelOf?_of_mem hrising hlisted⟩,
    fun v hv => ?_⟩
  rw [labelOf?, hlabels, Option.bind_some] at hv
  exact hbelow v (Labels.mem_of_labelOf? hv)

/-- Writing back the label that was read sets the field to the least value with this label, and no other
bit. Nothing changes if and only if the field had this value. -/
theorem unchanged_iff_least (h : f.Made) (raw : BitVec 64) (label : String)
    (hlabel : (f.describe raw).label = some label) :
    ∃ least packed, f.IsLeastOf label least ∧ f.packInput raw (.label label) = .ok packed ∧
      f.extract packed = least ∧ (∀ i, ¬f.Covers i → packed.getLsbD i = raw.getLsbD i) ∧
      (packed = raw ↔ f.IsLeastOf label (f.extract raw)) := by
  obtain ⟨least, hvalue, hleast⟩ := exists_isLeastOf h hlabel
  -- the value that was read is itself one with this label, so that the least one fits into the field
  have hbelow : least.toNat ≤ (f.extract raw).toNat := hleast.2 _ hlabel
  have hsmall : least.toNat < 2 ^ f.width := Nat.lt_of_le_of_lt hbelow (f.toNat_extract_lt raw)
  obtain ⟨packed, hpack⟩ := exists_pack hsmall raw
  have hresolve : f.resolve (.label label) = .ok least := by rw [resolve, hvalue]
  refine ⟨least, packed, hleast, packInput_eq_ok_iff.mpr ⟨least, hresolve, hpack⟩, extract_pack hpack,
    fun i hi => ?_, ?_⟩
  · rw [getLsbD_pack hpack, if_neg hi]
  · constructor
    · intro hsame
      rw [hsame] at hpack
      rwa [extract_pack hpack]
    · intro hread
      rw [hleast.unique hread, pack_extract, Except.ok.injEq] at hpack
      exact hpack.symm

/-- Two values that have one label, of which the greater one was read, and a value with a label of its
own. -/
theorem unchanged_iff_least_sharedLabel :
    let labels : Labels := [(0, "idle"), (1, "idle"), (2, "run")]
    let mode : BitField := ⟨"mode", 4, 2, some labels, by decide, by decide⟩
    mode.Made ∧ mode.packInput 0x15 (.label "idle") = .ok 0x05 ∧ ¬mode.IsLeastOf "idle" 1 ∧
      mode.packInput 0x25 (.label "run") = .ok 0x25 ∧ mode.IsLeastOf "run" 2 := by
  intro labels mode
  have hmake : make "mode" 4 2 ((some labels).map Labels.ofPairs) = .ok mode := rfl
  have hidle : mode.packInput 0x15 (.label "idle") = .ok 0x05 :=
    packInput_eq_ok_iff.mpr ⟨0, rfl, pack_eq_ok_iff.mpr (by decide)⟩
  have hrun : mode.packInput 0x25 (.label "run") = .ok 0x25 :=
    packInput_eq_ok_iff.mpr ⟨2, rfl, pack_eq_ok_iff.mpr (by decide)⟩
  refine ⟨.made hmake, hidle, ?_, hrun, ?_⟩
  · obtain ⟨-, packed, -, hpack, -, -, hsame⟩ :=
      unchanged_iff_least (.made hmake) 0x15 "idle" (by decide)
    rw [hidle] at hpack
    cases hpack
    have hextract : mode.extract 0x15 = 1 := by decide
    rw [hextract] at hsame
    exact fun hleast => absurd (hsame.mpr hleast) (by decide)
  · obtain ⟨-, packed, -, hpack, -, -, hsame⟩ :=
      unchanged_iff_least (.made hmake) 0x25 "run" (by decide)
    rw [hrun] at hpack
    cases hpack
    have hextract : mode.extract 0x25 = 2 := by decide
    rw [hextract] at hsame
    exact hsame.mp rfl

/-- Two values with one label are not told apart by it, although such labels are in order. -/
theorem not_always_unchanged :
    ¬∀ (f : BitField) (bits : Nat), f.Made → f.fault? bits = none → ∀ raw label,
      (f.describe raw).label = some label → f.packInput raw (.label label) = .ok raw := by
  intro h
  let labels : Labels := [(0, "idle"), (1, "idle")]
  let mode : BitField := ⟨"mode", 0, 2, some labels, by decide, by decide⟩
  have hmake : make "mode" 0 2 ((some labels).map Labels.ofPairs) = .ok mode := rfl
  have hpack : mode.packInput 1 (.label "idle") = .ok 0 :=
    packInput_eq_ok_iff.mpr ⟨0, rfl, pack_eq_ok_iff.mpr (by decide)⟩
  have hunchanged := h mode 8 (.made hmake) (by decide) 1 "idle" (by decide)
  rw [hpack, Except.ok.injEq] at hunchanged
  exact absurd hunchanged (by decide)

end BitField

end Canopen
