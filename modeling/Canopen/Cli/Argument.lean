import Canopen.Catalog
import Canopen.Cli.Failure
/-!
# Arguments of commands

Reading nodes, entries, values and bit fields from the texts a user gives.
-/
namespace Canopen.Cli

open Canopen.Number Canopen.Text

inductive NodeFault where
  | invalid (text : String)
  | outOfRange (text : String)
  deriving DecidableEq, Repr

def NodeFault.message : NodeFault → String
  | invalid text => s!"invalid node id '{text}'"
  | outOfRange text => s!"node id '{text}' out of range"

def readNode (s : String) : Except NodeFault UInt8 :=
  match readText? s with
  | none => .error (.invalid s)
  | some n => if n < 256 then .ok (UInt8.ofNat n) else .error (.outOfRange s)

inductive Target where
  | node (node : UInt8)
  | all
  deriving DecidableEq, Repr

def lowerCase (s : String) : String := String.ofList (s.toList.map Char.toLower)

def readTarget (s : String) : Except NodeFault Target :=
  if lowerCase s = "all" then .ok .all else (readNode s).map .node

def ofDictionary {α : Type} : Except DictionaryError α → Except Failure α
  | .ok a => .ok a
  | .error e => .error (.dictionary e)

theorem within_eq_ok_iff {α : Type} {activity : Activity} {x : Except DictionaryError α} {a : α} :
    within activity (ofDictionary x) = .ok a ↔ x = .ok a := by
  cases x <;> simp [within, ofDictionary]

def ofClient {α : Type} : Except ClientError α → Except Failure α
  | .ok a => .ok a
  | .error e => .error (.client e)

/-- The entry that a text names in a catalog. With a data type an address that the catalog does not
have stands for an entry of its own, which is called by the text. -/
def resolveEntry (catalog : Catalog) (identifier : String) (type : Option String) :
    Except Failure Entry :=
  match catalog.resolve? identifier with
  | some entry => .ok entry
  | none =>
    match type with
    | none => .error (.unknownEntry identifier)
    | some name => do
      let type ← within (.readingType name) (ofDictionary (DataType.parse name))
      let address ← within (.readingAddress identifier) (ofDictionary (Address.parse identifier))
      ofDictionary (Entry.build { address, name := identifier, type })

def readSigned (s : String) : Except Failure Int64 := do
  let (negative, digits) :=
    match s.toList with
    | '-' :: rest => (true, String.ofList rest)
    | _ => (false, s)
  let magnitude ← within (.readingInteger s) (ofDictionary (parseNumber digits))
  let value : Int := if negative then -(magnitude : Int) else magnitude
  if -(2 ^ 63) ≤ value ∧ value < 2 ^ 63 then return Int64.ofInt value
  else throw (.integerOutOfRange s)

def dropHexMarks : List Char → List Char
  | '0' :: 'x' :: rest => dropHexMarks rest
  | cs => cs

/-- Reads bytes as hexadecimal digits, between which blanks and colons are allowed. -/
def readBytes (s : String) : Except Failure (List UInt8) :=
  let digits := (dropHexMarks s.toList).filter fun c => !isBlank c && c ≠ ':'
  match Hex.decode (String.ofList digits) with
  | .ok bytes => .ok bytes
  | .error fault => .error (.during (.readingBytes s) (.hex fault))

def readFloat (s : String) : Except Failure Binary64 :=
  match Binary64.read s with
  | .ok x => .ok x
  | .error fault => .error (.during (.readingNumber s) (.float fault))

/-- Rounds a number to 32 bits, where it is not larger than the largest of them. -/
def roundToSingle (x : Binary64) : Binary64 :=
  let largest := Format.single.convert .double Format.single.largest
  if Format.double.magnitude x.pattern.toNat ≤ largest then Binary64.widen x.narrow else x

def readBool (s : String) : Except Failure Bool :=
  let name := lowerCase s
  if name = "true" || name = "1" || name = "on" then .ok true
  else if name = "false" || name = "0" || name = "off" then .ok false
  else .error (.notBoolean s)

/-- Reads a value of a data type; blanks around it do not count. -/
def readValue (type : DataType) (text : String) : Except Failure Value :=
  let s := trim text
  match type with
  | .boolean => (readBool s).map .bool
  | .signed _ => (readSigned s).map .int
  | .unsigned _ =>
    (within (.readingUnsigned s) (ofDictionary (parseNumber s))).map fun n => .uint (UInt64.ofNat n)
  | .real32 => (readFloat s).map fun x => .float (roundToSingle x)
  | .real64 => (readFloat s).map .float
  | .visibleString _ => .ok (.str s)
  | .octetString _ | .domain => (readBytes s).map .bytes

/-- Reads what is to be put into a bit field: a number, or else a label. -/
def readFieldInput (s : String) : FieldInput :=
  match readText? s with
  | some n => .raw (BitVec.ofNat 64 n)
  | none => .label (trim s)

def readArgument (limit : Nat) (what s : String) : Except Failure Nat := do
  let n ← within (.readingArgument what s) (ofDictionary (parseNumber s))
  if n < limit then return n else throw (.argumentOutOfRange what s)

end Canopen.Cli
