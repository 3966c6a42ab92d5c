import Canopen.Number.Decimal
import Canopen.Yaml.Place
/-!
# Reading a YAML document

How the nodes of a document are read as texts, numbers and records. Any scalar is a text where a
text is asked for; a number has to be plain. Where both are possible a plain scalar is what its
characters say: null, a truth value, a number, or else a text.
-/
namespace Canopen.Yaml

open Canopen.Number Canopen.Text

def isNull (s : String) : Bool := s = "null" || s = "Null" || s = "NULL" || s = "~"

def truth? (s : String) : Option Bool :=
  if s = "true" || s = "True" || s = "TRUE" then some true
  else if s = "false" || s = "False" || s = "FALSE" then some false
  else none

def dropSign : List Char → List Char
  | '+' :: cs => cs
  | '-' :: cs => cs
  | cs => cs

/-- Holds of digits that begin with a zero and are more than one, which are no number. -/
def isPaddedDigits (cs : List Char) : Bool :=
  match dropSign cs with
  | '0' :: c :: rest => (c :: rest).all Char.isDigit
  | _ => false

/-- Digits of a base, after its mark. -/
def readBased? (limit : Nat) (cs : List Char) : Option Nat :=
  match cs with
  | '0' :: 'x' :: digits => (readDigits? 16 digits).filter (· < limit)
  | '0' :: 'o' :: digits => (readDigits? 8 digits).filter (· < limit)
  | '0' :: 'b' :: digits => (readDigits? 2 digits).filter (· < limit)
  | _ => none

/-- A whole number without a minus sign, below a limit. -/
def natural? (limit : Nat) (s : String) : Option Nat :=
  let cs := s.toList
  let digits := dropPlus cs
  match readBased? limit digits with
  | some n => some n
  | none =>
    if isPaddedDigits cs then none else (readDigits? 10 digits).filter (· < limit)

/-- A whole number with a minus sign, not below the negative of a limit. -/
def negative? (limit : Nat) (s : String) : Option Nat :=
  match s.toList with
  | '-' :: digits =>
    match readBased? (limit + 1) digits with
    | some n => some n
    | none =>
      if isPaddedDigits digits then none else (readDigits? 10 digits).filter (· ≤ limit)
  | _ => none

/-- Holds of whole numbers of at most 128 bits. -/
def isInteger (s : String) : Bool :=
  (natural? (2 ^ 128) s).isSome || (negative? (2 ^ 127) s).isSome

def isFloat (s : String) : Bool :=
  let cs := s.toList
  let unsigned := dropPlus cs
  let name := String.ofList unsigned
  let isSpecial :=
    [".inf", ".Inf", ".INF"].contains name || ["-.inf", "-.Inf", "-.INF"].contains s ||
      [".nan", ".NaN", ".NAN"].contains s
  let doubleSign := unsigned.length < cs.length && dropSign unsigned ≠ unsigned
  let isFinite :=
    match Format.double.read unsigned with
    | .ok pattern => Format.double.magnitude pattern < Format.double.infinity
    | .error _ => false
  !doubleSign && !isPaddedDigits cs && (isSpecial || isFinite)

/-- What a plain scalar stands for. -/
inductive Plain where
  | null
  | truth
  | integer
  | float
  | text
  deriving DecidableEq, Repr

def Plain.ofText (s : String) : Plain :=
  if s = "" || isNull s then .null
  else if (truth? s).isSome then .truth
  else if isInteger s then .integer
  else if isFloat s then .float
  else .text

namespace Node

/-- A text: any scalar. -/
def text? : Node → Option String
  | scalar _ _ _ text => some text
  | _ => none

/-- A number: a plain scalar, or a literal one with the tag of numbers. -/
def natural? : Node → Option Nat
  | scalar _ tag style text =>
    if style = .plain || (style = .literal && tag = some (.core "int")) then
      Yaml.natural? (2 ^ 64) text
    else none
  | _ => none

/-- A number or a text, by what a plain scalar stands for. Zero can have a minus sign here. A tag of
the document's own is refused; one that is no text is passed over. -/
def naturalOrText? : Node → Option (Nat ⊕ String)
  | scalar _ tag style text =>
    let number :=
      match Yaml.natural? (2 ^ 64) text with
      | some n => some (.inl n)
      | none => if Yaml.negative? (2 ^ 63) text = some 0 then some (.inl 0) else none
    let plain :=
      match Plain.ofText text with
      | .integer => number
      | .text => some (.inr text)
      | _ => none
    if (tag.bind Tag.name?).isSome then none
    else if tag = some (.core "int") then number
    else if tag = some (.core "bool") || tag = some (.core "float") || tag = some (.core "null") then
      none
    else if tag.all Tag.isLocal && style = .plain then plain
    else some (.inr text)
  | _ => none

def isNothing (style : ScalarStyle) (text : String) : Bool :=
  style = .plain && (text = "" || isNull text)

/-- A name among several. A tag of the document's own is such a name if the scalar after it is
empty. -/
def choice? : Node → Option String
  | scalar _ tag style text =>
    match tag.bind Tag.name? with
    | some name => if isNothing style text then some name else none
    | none => some text
  | _ => none

/-- Holds of a part that is absent, as an empty plain scalar and null are if they have no tag. -/
def isAbsent? : Node → Option Bool
  | scalar _ tag style text =>
    if style ≠ .plain then some false
    else
      match tag with
      | some t => if t = .core "null" then if isNull text then some true else none else some false
      | none => some (text = "" || isNull text)
  | absent => some true
  | _ => some false

/-- A sequence. A plain scalar without characters is an empty one. -/
def items? : Node → Option (List Node)
  | sequence _ _ items => some items
  | scalar _ _ .plain "" => some []
  | absent => some []
  | _ => none

/-- The pairs of a mapping. A plain scalar without characters is an empty one. -/
def pairs? : Node → Option (List (Node × Node))
  | mapping _ _ pairs => some pairs
  | scalar _ _ .plain "" => some []
  | absent => some []
  | _ => none

end Node

namespace Place

open Document

/-- What a node or the one that it is an alias of is read as. -/
def get {α : Type} (p : Place) (read? : Node → Option α) : Following α := do
  accept (read? (← p.follow))

/-- The pairs of a mapping, whose keys are read. -/
def pairs {α : Type} (p : Place) (readKey? : Node → Option α) : Following (List (α × Place)) := do
  let pairs ← p.get Node.pairs?
  pairs.mapM fun (pair : Node × Node) => do
    return (← (p.goTo pair.1).get readKey?, p.goTo pair.2)

def optional (p : Place) : Following (Option Place) := do
  let node ← p.follow
  return if ← accept node.isAbsent? then none else some (p.goTo node)

end Place

instance : Document Place Following where
  text p := p.get Node.text?
  natural p := p.get Node.natural?
  naturalOrText p := p.get Node.naturalOrText?
  choice p := p.get Node.choice?
  optional := Place.optional
  items p := return (← p.get Node.items?).map p.goTo
  parts names p := do Document.accept (Document.select names (← p.pairs Node.text?))
  numbered p := p.pairs Node.natural?

end Canopen.Yaml
