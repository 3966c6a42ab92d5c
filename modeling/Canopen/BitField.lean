import Canopen.DictionaryError
/-!
# Bit fields

A bit field is a named range of bits in the raw value of an integer entry, with optional labels for
its values. Every bit field lies within 64 bits and has at least one.
-/
namespace Canopen

/-- Labels by value, in rising order of the values. -/
abbrev Labels := List (BitVec 64 × String)

namespace Labels

def insert (value : BitVec 64) (label : String) : Labels → Labels
  | [] => [(value, label)]
  | (v, l) :: rest =>
    if value.toNat < v.toNat then (value, label) :: (v, l) :: rest
    else if value = v then (value, label) :: rest
    else (v, l) :: insert value label rest

/-- Labels from pairs, of which a later one replaces an earlier one of the same value. -/
def ofPairs (pairs : List (BitVec 64 × String)) : Labels :=
  pairs.foldl (fun labels (value, label) => insert value label labels) []

def labelOf? (labels : Labels) (value : BitVec 64) : Option String :=
  (labels.find? fun p => p.1 == value).map Prod.snd

theorem mem_of_labelOf? {labels : Labels} {value : BitVec 64} {label : String}
    (h : labels.labelOf? value = some label) : (value, label) ∈ labels := by
  obtain ⟨⟨v, l⟩, hfind, rfl⟩ := Option.map_eq_some_iff.mp h
  have hv : v = value := by simpa using List.find?_some hfind
  subst hv
  exact List.mem_of_find?_eq_some hfind

/-- The least value that has a label. -/
def valueOf? (labels : Labels) (label : String) : Option (BitVec 64) :=
  (labels.find? fun p => p.2 == label).map Prod.fst

end Labels

structure BitField where
  name : String
  offset : Nat
  width : Nat
  labels : Option Labels
  width_pos : 0 < width
  fits : offset + width ≤ 64
  deriving DecidableEq, Repr

structure FieldValue where
  raw : BitVec 64
  label : Option String
  deriving DecidableEq, Repr

def FieldValue.text (v : FieldValue) : String :=
  match v.label with
  | some label => s!"{label} ({v.raw.toNat})"
  | none => toString v.raw.toNat

/-- A value to be packed into a bit field: a number or a label. -/
inductive FieldInput where
  | raw (value : BitVec 64)
  | label (label : String)
  deriving DecidableEq, Repr

def FieldInput.ofBool (b : Bool) : FieldInput := .raw (if b then 1 else 0)

/-- The first fault of a range of bits with labels in a value of so many bits. -/
def bitRangeFault? (name : String) (offset width : Nat) (labels : Option Labels) (bits : Nat) :
    Option DefinitionFault :=
  if width = 0 then some (.emptyField name)
  else if bits < offset + width then some (.fieldBeyondValue name offset (offset + width) bits)
  else
    match (labels.getD []).find? fun p => 2 ^ width ≤ p.1.toNat with
    | some p => some (.labelBeyondField name p.1.toNat)
    | none => none

namespace BitField

/-- A bit field, where the range is not empty and fits into 64 bits and the labels fit into it. -/
def make (name : String) (offset width : Nat) (labels : Option Labels) :
    Except DictionaryError BitField :=
  match bitRangeFault? name offset width labels 64 with
  | some fault => .error (.invalidDefinition fault)
  | none =>
    if h : 0 < width ∧ offset + width ≤ 64 then .ok ⟨name, offset, width, labels, h.1, h.2⟩
    else .error (.invalidDefinition (.emptyField name))

def flag (name : String) (offset : Nat) : Except DictionaryError BitField := make name offset 1 none

/-- Sets the labels. They are looked at again when an entry is built. -/
def withLabels (f : BitField) (pairs : List (BitVec 64 × String)) : BitField :=
  { f with labels := some (Labels.ofPairs pairs) }

def fault? (f : BitField) (bits : Nat) : Option DefinitionFault :=
  bitRangeFault? f.name f.offset f.width f.labels bits

/-- The largest value of the field, which has all its bits set. -/
def maxValue (f : BitField) : BitVec 64 := BitVec.ofNat 64 (2 ^ f.width - 1)

theorem width_le (f : BitField) : f.width ≤ 64 := by
  have hfits := f.fits
  omega

/-- The bits of the field in their place. -/
def mask (f : BitField) : BitVec 64 := f.maxValue <<< f.offset

def overlaps (f g : BitField) : Bool := f.mask &&& g.mask != 0

/-- The value of the field in a pattern. -/
def extract (f : BitField) (raw : BitVec 64) : BitVec 64 := (raw >>> f.offset) &&& f.maxValue

def labelOf? (f : BitField) (value : BitVec 64) : Option String :=
  f.labels.bind fun labels => labels.labelOf? value

def valueOf? (f : BitField) (label : String) : Option (BitVec 64) :=
  f.labels.bind fun labels => labels.valueOf? label

def describe (f : BitField) (raw : BitVec 64) : FieldValue :=
  ⟨f.extract raw, f.labelOf? (f.extract raw)⟩

/-- Sets the field's bits in a pattern and leaves the others as they are. -/
def pack (f : BitField) (raw value : BitVec 64) : Except DictionaryError (BitVec 64) :=
  if f.maxValue.toNat < value.toNat then
    .error (.outOfRange (.integer value.toNat 0 f.maxValue.toNat))
  else .ok ((raw &&& ~~~f.mask) ||| (value <<< f.offset))

def resolve (f : BitField) : FieldInput → Except DictionaryError (BitVec 64)
  | .raw value => .ok value
  | .label label =>
    match f.valueOf? label with
    | some value => .ok value
    | none => .error (.unknownLabel f.name label)

/-- Sets the field's bits in a pattern to a number or to the value of a label. -/
def packInput (f : BitField) (raw : BitVec 64) (input : FieldInput) :
    Except DictionaryError (BitVec 64) :=
  match f.resolve input with
  | .ok value => f.pack raw value
  | .error e => .error e

/-- An input is packed as the value it stands for. -/
theorem packInput_eq_ok_iff {f : BitField} {raw packed : BitVec 64} {input : FieldInput} :
    f.packInput raw input = .ok packed ↔
    ∃ value, f.resolve input = .ok value ∧ f.pack raw value = .ok packed := by
  unfold packInput
  cases f.resolve input with
  | ok value => simp
  | error e => simp

/-- Whether an input is refused does not depend on the bits it is packed into. -/
theorem packInput_eq_error_iff {f : BitField} {input : FieldInput} {e : DictionaryError}
    (raw raw' : BitVec 64) :
    f.packInput raw input = .error e ↔ f.packInput raw' input = .error e := by
  unfold packInput
  split
  · unfold pack
    split <;> simp
  · rfl

end BitField

end Canopen
