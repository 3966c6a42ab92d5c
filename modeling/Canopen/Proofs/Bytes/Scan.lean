import Canopen.Bytes
/-!
# Reading bytes one after another

A decoder that looks at the length of what is left where it has to, and otherwise takes bytes off
the front without looking. `Scan` tells the two ways in which it can fail apart: an error of its own,
and a byte that is taken where there is none. `Scan.run?` has no value in the second case.
-/
namespace Canopen.Bytes

/-- A decoder. Its state is the bytes not yet taken. -/
abbrev Scan (ε α : Type) := StateT (List UInt8) (ExceptT ε Option) α

namespace Scan

variable {ε α : Type}

/-- What a decoder makes of bytes. There is nothing where it goes past their end. -/
def run? (s : Scan ε α) (bytes : List UInt8) : Option (Except ε α) := (s.run' bytes).run

/-- Goes past the end of the bytes. -/
def overrun : Scan ε α := fun _ => ExceptT.lift none

/-- Looks whether a number of bytes are left. -/
def need (n : Nat) (e : ε) : Scan ε Unit := fun left =>
  if left.length < n then throw e else pure ((), left)

def byte : Scan ε UInt8 := do
  match ← get with
  | a :: rest =>
    set rest
    return a
  | [] => overrun

def word16 : Scan ε UInt16 := return Bytes.word16 (← byte) (← byte)

def word32 : Scan ε UInt32 := return Bytes.word32 (← byte) (← byte) (← byte) (← byte)

def bytes (n : Nat) : Scan ε (List UInt8) := fun left =>
  if left.length < n then overrun left else pure (left.take n, left.drop n)

def rest : Scan ε (List UInt8) := modifyGet fun left => (left, [])

/-- The byte that is left first, or zero where none is. It is not taken. -/
def first : Scan ε UInt8 := return (← get).headD 0

theorem run?_throw (e : ε) (left : List UInt8) :
    (throw e : Scan ε α).run? left = some (.error e) := rfl

theorem run?_need (n : Nat) (e : ε) (next : Scan ε α) (left : List UInt8) :
    (need n e >>= fun _ => next).run? left =
      if left.length < n then some (.error e) else next.run? left := by
  change (Prod.fst <$> (need n e left >>= fun p => next p.2) : ExceptT ε Option α) = _
  by_cases h : left.length < n
  · have hn : need n e left = throw e := if_pos h
    rw [hn, if_pos h]
    rfl
  · have hn : need n e left = pure ((), left) := if_neg h
    rw [hn, if_neg h]
    rfl

/-- Bytes that are there can be taken. -/
theorem run?_bytes {n : Nat} {left : List UInt8} (h : n ≤ left.length)
    (next : List UInt8 → Scan ε α) :
    (bytes n >>= next).run? left = (next (left.take n)).run? (left.drop n) := by
  have hn : bytes n left = (pure (left.take n, left.drop n) : ExceptT ε Option _) :=
    if_neg (Nat.not_lt.mpr h)
  change (Prod.fst <$> (bytes n left >>= fun p => next p.1 p.2) : ExceptT ε Option α) = _
  rw [hn]
  rfl

end Scan

/-- As many bytes as there are at least can be told from the others. -/
theorem exists_append_of_le {n : Nat} {bytes : List UInt8} (h : n ≤ bytes.length) :
    ∃ front rest, front.length = n ∧ bytes = front ++ rest :=
  ⟨bytes.take n, bytes.drop n, List.length_take_of_le h, (List.take_append_drop n bytes).symm⟩

end Canopen.Bytes
