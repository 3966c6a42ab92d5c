import Canopen.Catalog
import Canopen.Json.Reading
import Canopen.Yaml.Writer
/-!
# Definition files

The written form of a catalog: metadata and one record for each entry. A record is looked at more
closely when it becomes an entry; its data type, its access policy and its bit fields are checked
when it is read.
-/
namespace Canopen

/-- A number written as such or as text. -/
inductive Spelled where
  | number (n : Nat)
  | text (s : String)
  deriving DecidableEq, Repr

def Spelled.value : Spelled → Except DictionaryError Nat
  | .number n => .ok n
  | .text s => parseNumber s

structure EntryRecord where
  index : Spelled
  subIndex : Spelled := .number 0
  name : String
  description : Option String := none
  type : DataType
  access : Access := .readWrite
  fields : List BitField := []
  deriving DecidableEq, Repr

structure Definition where
  metadata : Option Metadata := none
  entries : List EntryRecord := []
  deriving DecidableEq, Repr

namespace EntryRecord

def toEntry (r : EntryRecord) : Except DictionaryError Entry :=
  match r.index.value with
  | .error e => .error e
  | .ok index =>
    if 0xFFFF < index then .error (.invalidAddress (.index index))
    else
      match r.subIndex.value with
      | .error e => .error e
      | .ok subIndex =>
        if 0xFF < subIndex then .error (.invalidAddress (.subIndex subIndex))
        else
          Entry.build
            { address := ⟨UInt16.ofNat index, UInt8.ofNat subIndex⟩
              name := r.name
              description := r.description
              type := r.type
              access := r.access
              fields := r.fields }

def ofEntry (e : Entry) : EntryRecord :=
  { index := .text (Address.indexText e.address.index)
    subIndex := .number e.address.subIndex.toNat
    name := e.name
    description := e.description
    type := e.type
    access := e.access
    fields := e.fields }

end EntryRecord

section Reading

variable {τ : Type} {m : Type → Type} [Monad m] [MonadExceptOf Unit m] [Document τ m]

open Document

/-- A part that need not be there; where it is not, it has a default. -/
def readPart {α : Type} (parts : List (String × τ)) (name : String) (absent : Option α)
    (read : τ → m α) : m α :=
  match parts.lookup name with
  | some d => read d
  | none => accept absent

def readOptional {α : Type} (read : τ → m α) (d : τ) : m (Option α) := do
  match ← optional d with
  | none => return none
  | some part => return some (← read part)

def readByte (d : τ) : m Nat := do
  let n ← natural d
  accept (if n < 256 then some n else none)

def Labels.read (d : τ) : m Labels := do
  let parts ← numbered d
  let labels ← parts.mapM fun (p : Nat × τ) => do return (BitVec.ofNat 64 p.1, ← text p.2)
  return Labels.ofPairs labels

def BitField.partNames : List (String × Bool) :=
  [("name", false), ("bit", false), ("width", true), ("labels", true)]

/-- A bit field, which has a width of one bit by default. -/
def BitField.read (d : τ) : m BitField := do
  let parts ← parts BitField.partNames d
  let name ← readPart parts "name" none text
  let offset ← readPart parts "bit" none readByte
  let width ← readPart parts "width" (some 1) readByte
  let labels ← readPart parts "labels" (some none) (readOptional Labels.read)
  accept (BitField.make name offset width labels).toOption

def Spelled.read (d : τ) : m Spelled := do
  match ← naturalOrText d with
  | .inl n => return .number n
  | .inr s => return .text s

def EntryRecord.partNames : List (String × Bool) :=
  [("index", false), ("sub_index", true), ("name", false), ("description", true), ("type", false),
    ("access", true), ("bits", true)]

def EntryRecord.read (d : τ) : m EntryRecord := do
  let parts ← parts EntryRecord.partNames d
  let index ← readPart parts "index" none Spelled.read
  let subIndex ← readPart parts "sub_index" (some (.number 0)) Spelled.read
  let name ← readPart parts "name" none text
  let description ← readPart parts "description" (some none) (readOptional text)
  let type ← readPart parts "type" none fun d => do accept (DataType.ofText? (← text d))
  let access ← readPart parts "access" (some .readWrite) fun d => do
    accept (Access.ofName? (← choice d))
  let fields ← readPart parts "bits" (some []) fun d => do (← items d).mapM BitField.read
  return { index, subIndex, name, description, type, access, fields }

def Metadata.partNames : List (String × Bool) :=
  [("name", false), ("version", false), ("description", false)]

def Metadata.read (d : τ) : m Metadata := do
  let parts ← parts Metadata.partNames d
  let name ← readPart parts "name" (some none) (readOptional text)
  let version ← readPart parts "version" (some none) (readOptional text)
  let description ← readPart parts "description" (some none) (readOptional text)
  return { name, version, description }

def Definition.partNames : List (String × Bool) := [("meta", true), ("entries", true)]

def Definition.read (d : τ) : m Definition := do
  let parts ← parts Definition.partNames d
  let metadata ← readPart parts "meta" (some none) (readOptional Metadata.read)
  let entries ← readPart parts "entries" (some []) fun d => do (← items d).mapM EntryRecord.read
  return { metadata, entries }

end Reading

section Writing

/-- A text that is left out where it is absent. -/
def optionalText (name : String) (s : Option String) : List (String × Data) :=
  match s with
  | some s => [(name, .text s)]
  | none => []

def BitField.toData (f : BitField) : Data :=
  let labels : List (String × Data) :=
    match f.labels with
    | some labels =>
      [("labels", .numbered (labels.map fun (value, label) => (value.toNat, .text label)))]
    | none => []
  .record ([("name", .text f.name), ("bit", .natural f.offset), ("width", .natural f.width)] ++
    labels)

def Spelled.toData : Spelled → Data
  | .number n => .natural n
  | .text s => .text s

def EntryRecord.toData (r : EntryRecord) : Data :=
  .record ([("index", r.index.toData), ("sub_index", r.subIndex.toData), ("name", .text r.name)] ++
    optionalText "description" r.description ++
    [("type", .text r.type.text), ("access", .text r.access.name)] ++
    (if r.fields = [] then [] else [("bits", .items (r.fields.map BitField.toData))]))

def Metadata.toData (m : Metadata) : Data :=
  .record (optionalText "name" m.name ++ optionalText "version" m.version ++
    optionalText "description" m.description)

def Definition.toData (d : Definition) : Data :=
  let metadata : List (String × Data) :=
    match d.metadata with
    | some m => [("meta", m.toData)]
    | none => []
  .record (metadata ++ [("entries", .items (d.entries.map EntryRecord.toData))])

end Writing

namespace Catalog

/-- The entries of records, up to the first fault. -/
def entriesOfRecords : List EntryRecord → Except DictionaryError (List Entry)
  | [] => .ok []
  | r :: rest =>
    match r.toEntry with
    | .error e => .error e
    | .ok entry =>
      match entriesOfRecords rest with
      | .ok entries => .ok (entry :: entries)
      | .error e => .error e

def ofDefinition (d : Definition) : Except DictionaryError Catalog :=
  match entriesOfRecords d.entries with
  | .ok entries => ofEntries (d.metadata.getD {}) entries
  | .error e => .error e

def toDefinition (c : Catalog) : Definition :=
  { metadata := some c.metadata, entries := c.entries.map EntryRecord.ofEntry }

/-- Reads a catalog from the text of a definition file. -/
def ofYaml (text : String) : Except DictionaryError Catalog :=
  match Yaml.Node.parse text with
  | .error fault => .error (.yaml fault.message)
  | .ok node =>
    match Yaml.Place.read? Definition.read node with
    | some d => ofDefinition d
    | none => .error (.yaml Yaml.Fault.wrongShape.message)

/-- The text of a definition file of a catalog. -/
def toYaml (c : Catalog) : String := Yaml.write c.toDefinition.toData

end Catalog

namespace Json

/-- The JSON form of a value, in which its kind is not written down. -/
def ofValue : Value → Json
  | .bool b => bool b
  | .int v => int v.toInt
  | .uint v => int v.toNat
  | .float x => float x
  | .str s => str s
  | .bytes b => array (b.map fun x => int x.toNat)

def bytes? (items : List Json) : Option (List UInt8) :=
  items.mapM fun j => (j.natural?.filter (· < 256)).map UInt8.ofNat

/-- The value of a JSON form. A whole number has a sign if it can. -/
def toValue? : Json → Option Value
  | bool b => some (.bool b)
  | int v =>
    if v < 2 ^ 63 then some (.int (Int64.ofInt v)) else some (.uint (UInt64.ofNat v.toNat))
  | float x => some (.float x)
  | str s => some (.str s)
  | array items => (bytes? items).map .bytes
  | _ => none

def ofEntry (e : Entry) : Json :=
  ofData (.record ([("index", .natural e.address.index.toNat),
      ("sub_index", .natural e.address.subIndex.toNat), ("name", .text e.name)] ++
    optionalText "description" e.description ++
    [("data_type", .text e.type.text), ("access", .text e.access.name)] ++
    (if e.fields = [] then [] else [("bit_fields", .items (e.fields.map BitField.toData))])))

end Json

end Canopen
