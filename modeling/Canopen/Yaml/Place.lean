import Canopen.Document
import Canopen.Yaml.Node
/-!
# Places in a YAML document

A node together with the nodes that the numbers of its document stand for. Where a part is asked for,
an alias is followed. A document whose aliases would have to be followed too often is refused, so
that a short text cannot stand for an immense one.
-/
namespace Canopen.Yaml

namespace Node

mutual

/-- The size of a node: one for a scalar or an alias, two for a collection besides its parts. -/
def size : Node → Nat
  | .scalar _ _ _ _ | .alias _ | .absent => 1
  | sequence _ _ items => sizeOfItems items + 2
  | mapping _ _ pairs => sizeOfPairs pairs + 2

def sizeOfItems : List Node → Nat
  | [] => 0
  | n :: rest => n.size + sizeOfItems rest

def sizeOfPairs : List (Node × Node) → Nat
  | [] => 0
  | (k, v) :: rest => k.size + v.size + sizeOfPairs rest

end

mutual

/-- The nodes with anchors, in the order in which they begin, by their numbers. -/
def anchored : Node → List (Nat × Node)
  | scalar anchor tag style text =>
    anchor.toList.map fun number => (number, scalar anchor tag style text)
  | sequence anchor tag items =>
    anchor.toList.map (fun number => (number, sequence anchor tag items)) ++ anchoredItems items
  | mapping anchor tag pairs =>
    anchor.toList.map (fun number => (number, mapping anchor tag pairs)) ++ anchoredPairs pairs
  | .alias _ | .absent => []

def anchoredItems : List Node → List (Nat × Node)
  | [] => []
  | n :: rest => n.anchored ++ anchoredItems rest

def anchoredPairs : List (Node × Node) → List (Nat × Node)
  | [] => []
  | (k, v) :: rest => k.anchored ++ v.anchored ++ anchoredPairs rest

end

/-- The nodes that numbers stand for: of several with the same number, the one that begins last. -/
def targets (n : Node) : Array Node :=
  n.anchored.foldl (fun found a => found.setIfInBounds a.1 a.2) (Array.replicate n.size absent)

end Node

/-- A node in its document. -/
structure Place where
  targets : Array Node
  node : Node

/-- A reading in the course of which aliases are followed; the state is the number of times that they
may still be. -/
abbrev Following := StateT Nat Option

namespace Place

/-- The whole of a document. -/
def root (n : Node) : Place := ⟨n.targets, n⟩

def goTo (p : Place) (n : Node) : Place := { p with node := n }

/-- The node itself, or the one that it is an alias of. -/
def follow (p : Place) : Following Node := do
  match p.node with
  | .alias number =>
    match ← get with
    | 0 => throw ()
    | left + 1 =>
      set left
      return p.targets.getD number .absent
  | node => return node

/-- How often aliases may be followed for each unit of a document's size. -/
def followsPerUnit : Nat := 100

def read? {α : Type} (reading : Place → Following α) (n : Node) : Option α :=
  ((reading (.root n)).run (followsPerUnit * n.size)).map Prod.fst

end Place

end Canopen.Yaml
