import Canopen.Document
import Canopen.Json.Source
/-!
# Definition trees in JSON

How the parts of JSON text are read as those of a definition file, and how a tree is written as
JSON. A record can be given as an array of its parts in order.
-/
namespace Canopen.Json

open Canopen.Number

def natural? : Json → Option Nat
  | int v => if 0 ≤ v then some v.toNat else none
  | _ => none

namespace Source

def text? : Source → Option String
  | text written => textOf? written
  | _ => none

def natural? : Source → Option Nat
  | number n => n.toJson?.bind Json.natural?
  | _ => none

def naturalOrText? : Source → Option (Nat ⊕ String)
  | text written => (textOf? written).map Sum.inr
  | s => s.natural?.map Sum.inl

/-- One of several names, alone or as the key of null. -/
def choice? : Source → Option String
  | text written => textOf? written
  | object [(name, null)] => textOf? name
  | _ => none

/-- A part that may be null. -/
def optional? : Source → Option (Option Source)
  | null => some none
  | s => some (some s)

def items? : Source → Option (List Source)
  | array items => some items
  | _ => none

/-- Names the items of an array in order; at its end, those names are left over that it has no item
for. -/
def zipNames : List (String × Bool) → List Source → Option (List (String × Source))
  | _ :: _, [] => some []
  | [], [] => some []
  | [], _ :: _ => none
  | (name, _) :: names, s :: items => (zipNames names items).map ((name, s) :: ·)

def parts? (names : List (String × Bool)) : Source → Option (List (String × Source))
  | object members =>
    (members.mapM fun (m : String × Source) => (textOf? m.1).map fun name => (name, m.2)).bind
      (Document.select names)
  | array items =>
    if (names.drop items.length).all (·.2) then zipNames names items else none
  | _ => none

/-- Parts by number. A number is written as a key without escapes. -/
def numbered? : Source → Option (List (Nat × Source))
  | object members =>
    members.mapM fun (m : String × Source) =>
      ((numberOf? m.1).bind Json.natural?).map fun n => (n, m.2)
  | _ => none

end Source

instance : Document Source Option where
  text := Source.text?
  natural := Source.natural?
  naturalOrText := Source.naturalOrText?
  choice := Source.choice?
  optional := Source.optional?
  items := Source.items?
  parts := Source.parts?
  numbered := Source.numbered?

mutual

/-- A written tree as JSON; numbers become texts where they are keys. -/
def ofData : Data → Json
  | .natural n => int n
  | .text s => str s
  | .items items => array (ofItems items)
  | .record parts => object (ofParts parts)
  | .numbered parts => object (ofNumbered parts)

def ofItems : List Data → List Json
  | [] => []
  | d :: rest => ofData d :: ofItems rest

def ofParts : List (String × Data) → List (String × Json)
  | [] => []
  | (name, d) :: rest => (name, ofData d) :: ofParts rest

def ofNumbered : List (Nat × Data) → List (String × Json)
  | [] => []
  | (n, d) :: rest => (toString n, ofData d) :: ofNumbered rest

end

end Canopen.Json
