import Canopen.Proofs.Entry.Errors
import Canopen.Proofs.Number.Grammar
/-!
# The grammar of addresses

The first colon parts an address into the numbers of its index and its sub-index; without a colon there
is an index only, and the sub-index is zero. A text is read as an address if and only if its parts denote
the numbers of this address, which are of 16 and of 8 bits (`Address.parse_eq_ok_iff`).
-/
namespace Canopen.Address

open Number Text

/-- Holds of a text and the address that it denotes. -/
inductive Denoted : List Char → Address → Prop
  | index {cs : List Char} {i : UInt16} (hcolon : ':' ∉ cs) (hindex : Denotes cs i.toNat) :
    Denoted cs ⟨i, 0⟩
  | both {before after : List Char} {i : UInt16} {s : UInt8} (hcolon : ':' ∉ before)
    (hindex : Denotes before i.toNat) (hsubIndex : Denotes after s.toNat) :
    Denoted (before ++ ':' :: after) ⟨i, s⟩

variable {s : String} {a : Address} {cs before after : List Char}

def readPart (greatest : Nat) (tooLarge : DictionaryError) (cs : List Char) :
    Except DictionaryError Nat := do
  let n ← parseNumber (String.ofList cs)
  if greatest < n then throw tooLarge else return n

theorem readPart_eq_ok_iff {greatest n : Nat} {tooLarge : DictionaryError}
    (hgreatest : greatest < 2 ^ 64) :
    readPart greatest tooLarge cs = .ok n ↔ Denotes cs n ∧ n ≤ greatest := by
  rw [readPart, bind_eq_ok_iff]
  simp only [parseNumber_eq_ok_iff, String.toList_ofList]
  constructor
  · rintro ⟨m, ⟨hdenotes, -⟩, h⟩
    split at h <;> cases h
    exact ⟨hdenotes, by omega⟩
  · rintro ⟨hdenotes, hle⟩
    exact ⟨n, ⟨hdenotes, by omega⟩, if_neg (by omega)⟩

/-- Without a colon all of the text is the index. -/
theorem parse_of_not_mem (hcolon : ':' ∉ s.toList) : parse s = do
    let i ← readPart 0xFFFF (.invalidAddress (.text s)) s.toList
    return ⟨UInt16.ofNat i, 0⟩ := by
  simp only [parse, splitOnce_eq_none hcolon, readPart]
  cases parseNumber (String.ofList s.toList) with
  | error e => rfl
  | ok i =>
    dsimp only [bind, Except.bind]
    split <;> rfl

/-- The first colon ends the index, which is looked at before the sub-index. -/
theorem parse_of_colon (hs : s.toList = before ++ ':' :: after) (hcolon : ':' ∉ before) : parse s = do
    let i ← readPart 0xFFFF (.invalidAddress (.text s)) before
    let sub ← readPart 0xFF (.invalidAddress (.text s)) after
    return ⟨UInt16.ofNat i, UInt8.ofNat sub⟩ := by
  simp only [parse, hs, splitOnce_of_not_mem hcolon, readPart]
  cases parseNumber (String.ofList before) with
  | error e => rfl
  | ok i =>
    dsimp only [bind, Except.bind]
    split
    · rfl
    · cases parseNumber (String.ofList after) with
      | error e => rfl
      | ok sub =>
        dsimp only [pure, Except.pure]
        split <;> rfl

theorem denoted_of_parse (h : parse s = .ok a) : Denoted s.toList a := by
  by_cases hcolon : ':' ∈ s.toList
  · obtain ⟨before, after, hs, hbefore⟩ := List.eq_append_cons_of_mem hcolon
    rw [parse_of_colon hs hbefore, bind_eq_ok_iff] at h
    obtain ⟨i, hi, h⟩ := h
    obtain ⟨sub, hsub, ⟨⟩⟩ := bind_eq_ok_iff.mp h
    obtain ⟨hindex, hle⟩ := (readPart_eq_ok_iff (by decide)).mp hi
    obtain ⟨hsubIndex, hsubLe⟩ := (readPart_eq_ok_iff (by decide)).mp hsub
    rw [← UInt16.toNat_ofNat_of_lt' (Nat.lt_succ_of_le hle)] at hindex
    rw [← UInt8.toNat_ofNat_of_lt' (Nat.lt_succ_of_le hsubLe)] at hsubIndex
    rw [hs]
    exact .both hbefore hindex hsubIndex
  · rw [parse_of_not_mem hcolon, bind_eq_ok_iff] at h
    obtain ⟨i, hi, ⟨⟩⟩ := h
    obtain ⟨hindex, hle⟩ := (readPart_eq_ok_iff (by decide)).mp hi
    rw [← UInt16.toNat_ofNat_of_lt' (Nat.lt_succ_of_le hle)] at hindex
    exact .index hcolon hindex

theorem parse_of_denoted (h : Denoted s.toList a) : parse s = .ok a := by
  have hindexLe (i : UInt16) : i.toNat ≤ 0xFFFF := Nat.le_of_lt_succ i.toNat_lt
  have hsubLe (sub : UInt8) : sub.toNat ≤ 0xFF := Nat.le_of_lt_succ sub.toNat_lt
  generalize hs : s.toList = cs at h
  cases h with
  | @index _ i hcolon hindex =>
    subst hs
    rw [parse_of_not_mem hcolon, bind_eq_ok_iff]
    refine ⟨i.toNat, (readPart_eq_ok_iff (by decide)).mpr ⟨hindex, hindexLe i⟩, ?_⟩
    rw [UInt16.ofNat_toNat]
    rfl
  | @both before after i sub hcolon hindex hsubIndex =>
    rw [parse_of_colon hs hcolon, bind_eq_ok_iff]
    refine ⟨i.toNat, (readPart_eq_ok_iff (by decide)).mpr ⟨hindex, hindexLe i⟩, ?_⟩
    rw [bind_eq_ok_iff]
    refine ⟨sub.toNat, (readPart_eq_ok_iff (by decide)).mpr ⟨hsubIndex, hsubLe sub⟩, ?_⟩
    rw [UInt16.ofNat_toNat, UInt8.ofNat_toNat]
    rfl

/-- A text is read as the address that it denotes. -/
theorem parse_eq_ok_iff : parse s = .ok a ↔ Denoted s.toList a := ⟨denoted_of_parse, parse_of_denoted⟩

end Canopen.Address
