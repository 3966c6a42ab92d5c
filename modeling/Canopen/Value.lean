import Canopen.Number.Decimal
import Canopen.Text.Hex
/-!
# Values

A decoded or to-be-encoded value of an entry. Its kind is held against the entry's data type when
it is encoded; nothing is converted silently.
-/
namespace Canopen

open Canopen.Number Canopen.Text

inductive Value where
  | bool (b : Bool)
  | int (v : Int64)
  | uint (v : UInt64)
  | float (x : Binary64)
  | str (s : String)
  | bytes (b : List UInt8)
  deriving DecidableEq, Repr

namespace Value

inductive Kind where
  | bool
  | int
  | uint
  | float
  | string
  | bytes
  deriving DecidableEq, Repr

def Kind.name : Kind → String
  | .bool => "bool"
  | .int => "int"
  | .uint => "uint"
  | .float => "float"
  | .string => "string"
  | .bytes => "bytes"

def kind : Value → Kind
  | bool _ => .bool
  | int _ => .int
  | uint _ => .uint
  | float _ => .float
  | str _ => .string
  | bytes _ => .bytes

/-- The whole number a value holds. -/
def integer? : Value → Option Int
  | int v => some v.toInt
  | uint v => some v.toNat
  | _ => none

/-- The whole number a value holds, where it is one of 64 bits without a sign. -/
def natural64? (v : Value) : Option Nat :=
  (v.integer?.filter fun n => 0 ≤ n && n < 2 ^ 64).map Int.toNat

/-- The whole number a value holds, where it is one of 64 bits with a sign. -/
def integer64? (v : Value) : Option Int :=
  v.integer?.filter fun n => -(2 ^ 63) ≤ n && n < 2 ^ 63

def float? : Value → Option Binary64
  | float x => some x
  | _ => none

def bool? : Value → Option Bool
  | bool b => some b
  | _ => none

def str? : Value → Option String
  | str s => some s
  | _ => none

def text : Value → String
  | bool b => if b then "true" else "false"
  | int v => toString v.toInt
  | uint v => toString v.toNat
  | float x => x.text
  | str s => s
  | bytes b => "0x" ++ Hex.encode b

end Value

end Canopen
