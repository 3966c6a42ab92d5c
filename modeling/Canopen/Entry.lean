import Canopen.Access
import Canopen.BitField
import Canopen.Encoding
/-!
# Entries

An entry binds an address of the object dictionary to a name, a data type, an access policy and bit
fields. Entries are checked once, when they are built from drafts.
-/
namespace Canopen

open Canopen.Text

namespace Entry

structure Draft where
  address : Address
  name : String
  description : Option String := none
  type : DataType
  access : Access := .readWrite
  fields : List BitField := []
  deriving DecidableEq, Repr

namespace Draft

def text (d : Draft) : String := s!"{d.name} ({d.address.text})"

/-- The first fault of a field beside the fields before it. -/
def fieldFault? (d : Draft) (bits : Nat) (earlier : List BitField) (field : BitField) :
    Option DefinitionFault :=
  match field.fault? bits with
  | some fault => some fault
  | none =>
    earlier.findSome? fun other =>
      if other.name = field.name then some (.duplicateField d.text field.name)
      else if other.overlaps field then some (.overlappingFields d.text other.name field.name)
      else none

/-- The first fault of the fields, each of which is held against those before it. -/
def fieldsFault? (d : Draft) (bits : Nat) : List BitField → List BitField → Option DefinitionFault
  | _, [] => none
  | earlier, field :: rest =>
    match d.fieldFault? bits earlier field with
    | some fault => some fault
    | none => fieldsFault? d bits (earlier ++ [field]) rest

def fault? (d : Draft) : Option DefinitionFault :=
  if trimChars d.name.toList = [] then some (.emptyName d.address)
  else if d.fields = [] then none
  else
    match d.type.bitWidth? with
    | none => some (.fieldsOnNonInteger d.text d.type)
    | some bits => d.fieldsFault? bits [] d.fields

end Draft

end Entry

/-- An entry of the object dictionary: a draft without a fault. -/
structure Entry extends Entry.Draft where
  valid : toDraft.fault? = none := by decide +kernel
  deriving DecidableEq, Repr

namespace Entry

/-- The entry of a draft, if that has no fault. -/
def build (d : Draft) : Except DictionaryError Entry :=
  match valid : d.fault? with
  | some fault => .error (.invalidDefinition fault)
  | none => .ok ⟨d, valid⟩

theorem build_eq_error {d : Draft} {fault : DefinitionFault} (h : d.fault? = some fault) :
    build d = .error (.invalidDefinition fault) := by
  unfold build
  split
  · rename_i fault' hfault
    rw [h, Option.some.injEq] at hfault
    rw [hfault]
  · rename_i hfault
    rw [h] at hfault
    contradiction

def field (e : Entry) (name : String) : Except DictionaryError BitField :=
  match e.fields.find? fun f => f.name = name with
  | some f => .ok f
  | none => .error (.unknownBitField e.name name)

theorem mem_of_field {e : Entry} {name : String} {f : BitField} (h : e.field name = .ok f) :
    f ∈ e.fields := by
  unfold field at h
  split at h
  · rename_i hfind
    cases h
    exact List.mem_of_find?_eq_some hfind
  · contradiction

theorem eq_unknownBitField_of_field {e : Entry} {name : String} {why : DictionaryError}
    (h : e.field name = .error why) : why = .unknownBitField e.name name := by
  unfold field at h
  split at h <;> cases h
  rfl

def encode (e : Entry) (v : Value) : Except DictionaryError (List UInt8) := e.type.encode v

def decode (e : Entry) (data : List UInt8) : Except DictionaryError Value := e.type.decode data

def extractField (e : Entry) (name : String) (data : List UInt8) :
    Except DictionaryError FieldValue := do
  let f ← e.field name
  let raw ← e.type.rawBits data
  return f.describe raw

/-- The bytes of the entry after a bit field has been set. -/
def packField (e : Entry) (name : String) (data : List UInt8) (input : FieldInput) :
    Except DictionaryError (List UInt8) := do
  let f ← e.field name
  let raw ← e.type.rawBits data
  let packed ← f.packInput raw input
  e.type.ofRawBits packed

/-- Checks an input for a bit field before the bytes of the entry are known. -/
def checkFieldInput (e : Entry) (name : String) (input : FieldInput) :
    Except DictionaryError Unit := do
  let f ← e.field name
  let _ ← f.packInput 0 input
  return ()

theorem checkFieldInput_of_field {e : Entry} {name : String} {f : BitField} {input : FieldInput}
    (hf : e.field name = .ok f) :
    e.checkFieldInput name input = (f.packInput 0 input).map fun _ => () := by
  simp only [checkFieldInput, hf, bind, Except.bind]
  cases f.packInput 0 input <;> rfl

end Entry

end Canopen
