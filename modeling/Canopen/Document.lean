import Canopen.Number.Power
/-!
# Trees of definition files

What a definition file asks of the tree it is read from, whatever the format, and the tree that a
definition file is written from.
-/
namespace Canopen

/-- The reading of a tree. It goes on in a monad in which it can end early: each reader refuses a part
of another shape. -/
class Document (τ : Type) (m : outParam (Type → Type)) where
  text : τ → m String
  /-- A number below 2^64. -/
  natural : τ → m Nat
  naturalOrText : τ → m (Nat ⊕ String)
  /-- One of several names. -/
  choice : τ → m String
  optional : τ → m (Option τ)
  items : τ → m (List τ)
  /-- The named parts of a record; the flag tells whether a part can be left out even where parts
  are told apart by their order. A name given twice is refused, one not asked for is passed over. -/
  parts : List (String × Bool) → τ → m (List (String × τ))
  /-- Parts by number. -/
  numbered : τ → m (List (Nat × τ))

def Document.accept {m : Type → Type} {α : Type} [Monad m] [MonadExceptOf Unit m] :
    Option α → m α
  | some a => pure a
  | none => throw ()

/-- The parts of a record among its members, each of which may occur once. -/
def Document.select {τ : Type} (names : List (String × Bool)) (members : List (String × τ)) :
    Option (List (String × τ)) :=
  let known := members.filter fun m => names.any fun n => n.1 = m.1
  if known.any fun m => 1 < (known.filter fun k => k.1 = m.1).length then none else some known

inductive Data where
  | natural (n : Nat)
  | text (s : String)
  | items (items : List Data)
  | record (parts : List (String × Data))
  | numbered (parts : List (Nat × Data))
  deriving Repr

/-- A written tree is read back part by part. -/
instance : Document Data Option where
  text
    | .text s => some s
    | _ => none
  natural
    | .natural n => if n < 2 ^ 64 then some n else none
    | _ => none
  naturalOrText
    | .natural n => if n < 2 ^ 64 then some (.inl n) else none
    | .text s => some (.inr s)
    | _ => none
  choice
    | .text s => some s
    | _ => none
  optional d := some (some d)
  items
    | .items items => some items
    | _ => none
  parts names
    | .record parts => Document.select names parts
    | _ => none
  numbered
    | .numbered parts => if parts.all fun p => p.1 < 2 ^ 64 then some parts else none
    | _ => none

end Canopen
