import Canopen.Number.Decimal
import Canopen.Text.Hex
/-!
# JSON values and their text

A JSON value, its compact text and its text over several lines. Members of an object keep their
order. A floating-point number that JSON has no text for is written as null.
-/
namespace Canopen

open Canopen.Number Canopen.Text

/-- A JSON value. A number is a whole number of 64 bits or a floating-point number. -/
inductive Json where
  | null
  | bool (b : Bool)
  | int (v : Int)
  | float (x : Binary64)
  | str (s : String)
  | array (items : List Json)
  | object (members : List (String × Json))
  deriving Repr

namespace Json

def escape (c : Char) : List Char :=
  if c = '"' then ['\\', '"']
  else if c = '\\' then ['\\', '\\']
  else if c = '\n' then ['\\', 'n']
  else if c = '\r' then ['\\', 'r']
  else if c = '\t' then ['\\', 't']
  else if c.toNat = 8 then ['\\', 'b']
  else if c.toNat = 12 then ['\\', 'f']
  else if c.toNat < 32 then
    ['\\', 'u', '0', '0', Hex.digit (c.toNat / 16), Hex.digit (c.toNat % 16)]
  else [c]

def quote (s : String) : String :=
  "\"" ++ String.ofList (s.toList.flatMap escape) ++ "\""

def scalarText : Json → String
  | bool b => if b then "true" else "false"
  | int v => toString v
  | float x => x.jsonText?.getD "null"
  | str s => quote s
  | _ => "null"

mutual

/-- The text of a value, without blanks. -/
def compact : Json → String
  | array items => "[" ++ compactItems items ++ "]"
  | object members => "\x7b" ++ compactMembers members ++ "\x7d"
  | v => v.scalarText

def compactItems : List Json → String
  | [] => ""
  | [v] => v.compact
  | v :: rest => v.compact ++ "," ++ compactItems rest

def compactMembers : List (String × Json) → String
  | [] => ""
  | [(k, v)] => quote k ++ ":" ++ v.compact
  | (k, v) :: rest => quote k ++ ":" ++ v.compact ++ "," ++ compactMembers rest

end

/-- The beginning of a line at the given depth. -/
def indent (depth : Nat) : String := String.ofList ('\n' :: List.replicate (2 * depth) ' ')

mutual

/-- The text of a value with each part on a line of its own. -/
def pretty (depth : Nat) : Json → String
  | array [] => "[]"
  | array items => "[" ++ prettyItems (depth + 1) items ++ indent depth ++ "]"
  | object [] => "\x7b\x7d"
  | object members => "\x7b" ++ prettyMembers (depth + 1) members ++ indent depth ++ "\x7d"
  | v => v.scalarText

def prettyItems (depth : Nat) : List Json → String
  | [] => ""
  | [v] => indent depth ++ v.pretty depth
  | v :: rest => indent depth ++ v.pretty depth ++ "," ++ prettyItems depth rest

def prettyMembers (depth : Nat) : List (String × Json) → String
  | [] => ""
  | [(k, v)] => indent depth ++ quote k ++ ": " ++ v.pretty depth
  | (k, v) :: rest =>
    indent depth ++ quote k ++ ": " ++ v.pretty depth ++ "," ++ prettyMembers depth rest

end

end Json

end Canopen
