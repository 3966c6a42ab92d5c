import Canopen.Proofs.BitField.Words
import Canopen.Proofs.Entry.Fields
import Mathlib.Data.List.TakeWhile
import Mathlib.Order.CompletePartialOrder
import Mathlib.Order.Interval.Set.Disjoint
/-!
# Which entries can be built

An entry is built from a draft exactly if it has a name that is not blank and its fields are ranges of
bits of an integer type that do not meet, have different names and hold the values of their labels.
Whether fields meet is seen from their masks, for which no shift overflows
(`Entry.build_iff_wellFormed`).
-/
namespace Canopen

open Text

/-- Only blank characters leave nothing behind. -/
theorem Text.trimChars_eq_nil_iff {cs : List Char} : trimChars cs = [] ↔ ∀ c ∈ cs, isBlank c = true := by
  rw [trimChars, List.reverse_eq_nil_iff, List.dropWhile_eq_nil_iff]
  simp only [List.mem_reverse]
  constructor
  · intro h c hc
    rw [← List.takeWhile_append_dropWhile (p := isBlank) (l := cs)] at hc
    rcases List.mem_append.mp hc with hc | hc
    · exact List.mem_takeWhile_imp hc
    · exact h c hc
  · intro h c hc
    exact h c (List.dropWhile_subset _ hc)

namespace BitField

variable {f g : BitField}

def range (f : BitField) : Set Nat := Set.Ico f.offset (f.offset + f.width)

/-- The masks of fields meet where their ranges do. -/
theorem overlaps_eq_false_iff_disjoint : f.overlaps g = false ↔ Disjoint f.range g.range := by
  rw [overlaps_eq_false_iff, Set.disjoint_left]
  exact forall_congr' fun i => not_and

end BitField

namespace Entry

/-- Holds of fields that can stand in a value of so many bits. -/
structure FieldsFit (fields : List BitField) (bits : Nat) : Prop where
  within : ∀ f ∈ fields, 1 ≤ f.width ∧ f.offset + f.width ≤ bits
  labels : ∀ f ∈ fields, ∀ p ∈ f.labels.getD [], p.1.toNat ≤ 2 ^ f.width - 1
  names : fields.Pairwise fun f g => f.name ≠ g.name
  disjoint : fields.Pairwise fun f g => Disjoint f.range g.range

theorem fieldsFit_iff {fields : List BitField} {bits : Nat} : FieldsFit fields bits ↔
    (∀ f ∈ fields, f.fault? bits = none) ∧ fields.Pairwise BitField.Apart := by
  have hlabel (f : BitField) (n : Nat) : n < 2 ^ f.width ↔ n ≤ 2 ^ f.width - 1 := by
    have hpos : 0 < 2 ^ f.width := Nat.two_pow_pos f.width
    omega
  have hapart : fields.Pairwise BitField.Apart ↔
      fields.Pairwise (fun f g => f.name ≠ g.name) ∧
        fields.Pairwise fun f g => Disjoint f.range g.range := by
    rw [← List.pairwise_and_iff]
    exact List.Pairwise.iff fun f g =>
      and_congr_right fun _ => BitField.overlaps_eq_false_iff_disjoint
  simp only [BitField.fault?_eq_none_iff, hapart]
  constructor
  · intro h
    refine ⟨fun f hf => ⟨(h.within f hf).2, fun p hp => ?_⟩, h.names, h.disjoint⟩
    exact (hlabel f _).mpr (h.labels f hf p hp)
  · rintro ⟨hfaults, hnames, hdisjoint⟩
    refine ⟨fun f hf => ⟨f.width_pos, (hfaults f hf).1⟩, fun f hf p hp => ?_, hnames, hdisjoint⟩
    exact (hlabel f _).mp ((hfaults f hf).2 p hp)

namespace Draft

variable {d : Draft} {bits : Nat}

/-- Holds of drafts that have a name and whose fields fit into the type. -/
structure WellFormed (d : Draft) : Prop where
  /-- Some character of the name is not blank. -/
  named : ∃ c ∈ d.name.toList, isBlank c = false
  /-- Without fields the type can be any, and with fields it is an integer. -/
  fields : d.fields = [] ∨ ∃ w, d.type.intWidth? = some w ∧ FieldsFit d.fields w.bits

/-- A draft is well-formed if and only if it has no fault. -/
theorem wellFormed_iff : d.WellFormed ↔ d.fault? = none := by
  have hname : trimChars d.name.toList ≠ [] ↔ ∃ c ∈ d.name.toList, isBlank c = false := by
    simp [trimChars_eq_nil_iff]
  simp only [fault?_eq_none_iff, hname, ← fieldsFit_iff]
  exact ⟨fun h => ⟨h.named, h.fields⟩, fun h => ⟨h.1, h.2⟩⟩

instance (d : Draft) : Decidable d.WellFormed := decidable_of_iff _ wellFormed_iff.symm

def checkedFieldFault? (d : Draft) (bits : Nat) (earlier : List BitField) (field : BitField) :
    Option (Option DefinitionFault) := do
  match ← checkedRangeFault? field.name field.offset field.width field.labels bits with
  | some fault => return some fault
  | none =>
    earlier.findSomeM? fun other => do
      if other.name = field.name then return some (.duplicateField d.text field.name)
      else if ← other.checkedOverlaps? field then
        return some (.overlappingFields d.text other.name field.name)
      else return none

def checkedFieldsFault? (d : Draft) (bits : Nat) :
    List BitField → List BitField → Option (Option DefinitionFault)
  | _, [] => some none
  | earlier, field :: rest => do
    match ← d.checkedFieldFault? bits earlier field with
    | some fault => return some fault
    | none => checkedFieldsFault? d bits (earlier ++ [field]) rest

/-- The first fault of a draft, found with shifts that are refused where they overflow. -/
def checkedFault? (d : Draft) : Option (Option DefinitionFault) :=
  if trimChars d.name.toList = [] then some (some (.emptyName d.address))
  else if d.fields = [] then some none
  else
    match d.type.bitWidth? with
    | none => some (some (.fieldsOnNonInteger d.text d.type))
    | some bits => d.checkedFieldsFault? bits [] d.fields

theorem checkedFieldFault?_eq (h : bits ≤ 64) (earlier : List BitField) (field : BitField) :
    d.checkedFieldFault? bits earlier field = some (d.fieldFault? bits earlier field) := by
  have hrange : checkedRangeFault? field.name field.offset field.width field.labels bits =
      some (field.fault? bits) := checkedRangeFault?_eq h
  rw [checkedFieldFault?, hrange, fieldFault?]
  cases field.fault? bits with
  | some fault => rfl
  | none =>
    -- each of the earlier fields is held against this one with the same result
    refine Eq.trans (congrArg (earlier.findSomeM? ·) (funext fun other => ?_)) List.findSomeM?_pure
    rw [BitField.checkedOverlaps?_eq]
    split
    · rfl
    · cases other.overlaps field <;> rfl

theorem checkedFieldsFault?_eq (h : bits ≤ 64) (earlier fields : List BitField) :
    d.checkedFieldsFault? bits earlier fields = some (d.fieldsFault? bits earlier fields) := by
  induction fields generalizing earlier with
  | nil => rfl
  | cons field rest ih =>
    rw [checkedFieldsFault?, checkedFieldFault?_eq h, fieldsFault?]
    cases d.fieldFault? bits earlier field with
    | some fault => rfl
    | none => exact ih _

theorem checkedFault?_eq (d : Draft) : d.checkedFault? = some d.fault? := by
  unfold checkedFault? fault?
  split
  · rfl
  · split
    · rfl
    · rw [DataType.bitWidth?]
      cases d.type.intWidth? with
      | none => rfl
      | some w => exact checkedFieldsFault?_eq w.bits_le [] d.fields

end Draft

/-- An entry is built as it was drafted, if and only if the draft is well-formed; otherwise the
definition has a fault. To find this out no shift overflows. -/
theorem build_iff_wellFormed (d : Draft) :
    ((∃ e, build d = .ok e ∧ e.toDraft = d) ↔ d.WellFormed) ∧
    ((∃ fault, build d = .error (.invalidDefinition fault)) ↔ ¬d.WellFormed) ∧
    d.checkedFault? = some d.fault? := by
  rw [Draft.wellFormed_iff]
  refine ⟨?_, ?_, d.checkedFault?_eq⟩
  · constructor
    · rintro ⟨e, -, rfl⟩
      exact e.valid
    · intro h
      exact ⟨_, build_eq_ok h, rfl⟩
  · constructor
    · rintro ⟨fault, hbuild⟩ h
      rw [build_eq_ok h] at hbuild
      contradiction
    · intro h
      obtain ⟨fault, hfault⟩ := Option.ne_none_iff_exists'.mp h
      exact ⟨fault, build_eq_error hfault⟩

/-- Fields side by side up to the last bit, with the greatest value as a label, and fields that meet in
one bit. -/
example :
    let low : BitField := ⟨"low", 0, 60, none, by decide, by decide⟩
    let top : BitField := ⟨"top", 60, 4, some [(15, "all")], by decide, by decide⟩
    let below : BitField := ⟨"below", 59, 4, none, by decide, by decide⟩
    let word (fields : List BitField) : Draft :=
      { address := ⟨0x2000, 0⟩, name := "word", type := .signed .w64, fields }
    (word [low, top]).WellFormed ∧ ¬(word [low, below]).WellFormed := by
  decide +kernel

end Entry

end Canopen
