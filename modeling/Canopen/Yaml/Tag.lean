import Canopen.Text.Utf8
/-!
# Tags of YAML

A tag says what a node stands for. It is a sequence of bytes: the escapes in it need not make up
text, and it ends before a byte that is zero.
-/
namespace Canopen.Yaml

open Canopen.Text

structure Tag where
  bytes : List UInt8
  deriving DecidableEq, Repr

namespace Tag

def ofText (s : String) : Tag := ⟨Utf8.encode s⟩

/-- A tag with a meaning of its own. -/
def core (name : String) : Tag := .ofText ("tag:yaml.org,2002:" ++ name)

/-- The tag that stands for no particular one. -/
def unspecific : Tag := .ofText "!"

/-- The part of a tag that counts: its bytes before one that is zero. -/
def beforeZero (t : Tag) : Tag := ⟨t.bytes.takeWhile (· ≠ 0)⟩

/-- Two parts of a tag together. -/
def append (t u : Tag) : Tag := ⟨t.bytes ++ u.bytes⟩

instance : Append Tag := ⟨append⟩

/-- Holds of the tags of a document's own making. -/
def isLocal (t : Tag) : Bool := t.bytes.head? = some 0x21

/-- The name that a tag of a document's own making gives, if it is text. -/
def name? (t : Tag) : Option String :=
  if !t.isLocal then none
  else
    match Utf8.decode (if t = unspecific then t.bytes else t.bytes.drop 1) with
    | .ok s => some s
    | .error _ => none

end Tag

end Canopen.Yaml
