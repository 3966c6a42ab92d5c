import Canopen.Address
import Canopen.DataType
import Canopen.SystemError
import Canopen.Text.Utf8
import Canopen.Value
/-!
# Errors of the object dictionary

What can go wrong when definitions are built and values converted, by cause, and the wording of
each.
-/
namespace Canopen

open Canopen.Number Canopen.Text

inductive RangeFault where
  | integer (value low high : Int)
  /-- A finite number larger than the largest of 32 bits. -/
  | real (value : Binary64)
  /-- More bytes than a string holds. -/
  | length (actual limit : Nat)
  deriving DecidableEq, Repr

def RangeFault.message : RangeFault → String
  | .integer value low high =>
    s!"value out of range: {value} not in [{low}, {high}]"
  | .real value =>
    let high := Format.single.text Format.single.largest
    s!"value out of range: {value.text} not in [-{high}, {high}]"
  | .length actual limit =>
    s!"value out of range: {actual} bytes not in [0 bytes, {limit} bytes]"

inductive MalformedReason where
  | wrongLength (expected actual : Nat)
  | notText (fault : Utf8.Fault)
  | notInteger
  deriving DecidableEq, Repr

def MalformedReason.message : MalformedReason → String
  | .wrongLength expected actual => s!"expected {expected} bytes, got {actual}"
  | .notText fault => s!"invalid UTF-8: {fault.message}"
  | .notInteger => "bit access requires an integer type"

/-- Why a definition is refused. An entry in a fault is named by its text. -/
inductive DefinitionFault where
  | unknownDataType (text : String)
  | emptyName (address : Address)
  | fieldsOnNonInteger (entry : String) (type : DataType)
  | emptyField (field : String)
  | fieldBeyondValue (field : String) (first last bits : Nat)
  | labelBeyondField (field : String) (value : Nat)
  | duplicateField (entry field : String)
  | overlappingFields (entry earlier later : String)
  deriving DecidableEq, Repr

/-- What a fault is about. -/
def DefinitionFault.target : DefinitionFault → String
  | .unknownDataType _ => "data type"
  | .emptyName address => address.text
  | .fieldsOnNonInteger entry _ | .duplicateField entry _ | .overlappingFields entry _ _ => entry
  | .emptyField field | .fieldBeyondValue field _ _ _ | .labelBeyondField field _ =>
    s!"bit field '{field}'"

/-- What a fault consists in. -/
def DefinitionFault.reason : DefinitionFault → String
  | .unknownDataType text => s!"unknown data type '{text}'"
  | .emptyName _ => "entry name is empty"
  | .fieldsOnNonInteger _ type => s!"bit fields require an integer type, not {type.text}"
  | .emptyField _ => "bit width must be at least 1"
  | .fieldBeyondValue _ first last bits => s!"bits {first}..{last} exceed the {bits}-bit value"
  | .labelBeyondField _ value => s!"label value {value} does not fit"
  | .duplicateField _ field => s!"duplicate bit field '{field}'"
  | .overlappingFields _ earlier later => s!"bit fields '{earlier}' and '{later}' overlap"

inductive Duplicate where
  | address (address : Address)
  | name (name : String)
  deriving DecidableEq, Repr

def Duplicate.text : Duplicate → String
  | .address place => place.text
  | .name common => s!"name '{common}'"

inductive AddressFault where
  | text (text : String)
  | index (value : Nat)
  | subIndex (value : Nat)
  deriving DecidableEq, Repr

def AddressFault.message : AddressFault → String
  | .text content => content
  | .index value => s!"index {value} out of range"
  | .subIndex value => s!"sub-index {value} out of range"

inductive FileFault where
  | notFound
  | isDirectory
  | notDirectory
  | permissionDenied
  | nameTooLong
  | nulInPath
  | notText
  | system (number : Nat)
  deriving DecidableEq, Repr

/-- The fault of a number. -/
def FileFault.ofNumber : Nat → FileFault
  | 2 => .notFound
  | 13 => .permissionDenied
  | 20 => .notDirectory
  | 21 => .isDirectory
  | 36 => .nameTooLong
  | number => .system number

def FileFault.message : FileFault → String
  | .notFound => SystemError.text 2
  | .isDirectory => SystemError.text 21
  | .notDirectory => SystemError.text 20
  | .permissionDenied => SystemError.text 13
  | .nameTooLong => SystemError.text 36
  | .nulInPath => "file name contained an unexpected NUL byte"
  | .notText => "stream did not contain valid UTF-8"
  | .system number => SystemError.text number

inductive DictionaryError where
  | outOfRange (fault : RangeFault)
  | inexact (value : Binary64) (type : DataType)
  | typeMismatch (type : DataType) (kind : Value.Kind)
  | malformed (type : DataType) (reason : MalformedReason)
  | unknownLabel (field label : String)
  | unknownBitField (entry field : String)
  | invalidDefinition (fault : DefinitionFault)
  | duplicateEntry (common : Duplicate)
  | invalidAddress (fault : AddressFault)
  | alreadyInstalled
  | yaml (detail : String)
  | file (fault : FileFault)
  deriving DecidableEq, Repr

def DictionaryError.message : DictionaryError → String
  | .outOfRange fault => fault.message
  | .inexact value type => s!"value {value.text} is not exactly representable as {type.text}"
  | .typeMismatch type kind => s!"type mismatch: {kind.name} value cannot be encoded as {type.text}"
  | .malformed type reason => s!"malformed {type.text} data: {reason.message}"
  | .unknownLabel field label => s!"unknown label '{label}' for bit field '{field}'"
  | .unknownBitField entry field => s!"entry '{entry}' has no bit field named '{field}'"
  | .invalidDefinition fault => s!"invalid definition for {fault.target}: {fault.reason}"
  | .duplicateEntry common => s!"duplicate entry {common.text}"
  | .invalidAddress fault => s!"invalid address format: {fault.message}"
  | .alreadyInstalled => "object dictionary already installed"
  | .yaml detail => s!"YAML parse error: {detail}"
  | .file fault => s!"IO error: {fault.message}"

def DataType.parse (s : String) : Except DictionaryError DataType :=
  match DataType.ofText? s with
  | some type => .ok type
  | none => .error (.invalidDefinition (.unknownDataType (trim s)))

/-- Reads a number, in base sixteen after 0x and in base ten otherwise. -/
def parseNumber (s : String) : Except DictionaryError Nat :=
  match readText? s with
  | some n => .ok n
  | none => .error (.invalidAddress (.text (trim s)))

/-- Reads an address: an index and, after a colon, a sub-index, which is zero by default. A part
that is no number is reported alone, a number that is too large with the whole text. -/
def Address.parse (s : String) : Except DictionaryError Address :=
  let tooLarge : DictionaryError := .invalidAddress (.text s)
  let parts : List Char × Option (List Char) :=
    match splitOnce ':' s.toList with
    | some (before, after) => (before, some after)
    | none => (s.toList, none)
  match parseNumber (String.ofList parts.1) with
  | .error e => .error e
  | .ok index =>
    if 0xFFFF < index then .error tooLarge
    else
      match parts.2 with
      | none => .ok ⟨UInt16.ofNat index, 0⟩
      | some after =>
        match parseNumber (String.ofList after) with
        | .error e => .error e
        | .ok subIndex =>
          if 0xFF < subIndex then .error tooLarge
          else .ok ⟨UInt16.ofNat index, UInt8.ofNat subIndex⟩

end Canopen
