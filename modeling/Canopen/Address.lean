import Canopen.Number.Grammar
/-!
# Addresses

An entry of the object dictionary is addressed by an index of 16 bits and a sub-index of 8 bits.
-/
namespace Canopen

open Canopen.Text

structure Address where
  index : UInt16
  subIndex : UInt8
  deriving DecidableEq, Repr

namespace Address

/-- A number that orders addresses by index, then by sub-index. -/
def key (a : Address) : Nat := a.index.toNat * 256 + a.subIndex.toNat

def indexText (index : UInt16) : String := "0x" ++ Hex.padded 4 index.toNat

/-- The text of an address: index and sub-index in base sixteen, parted by a colon. -/
def text (a : Address) : String := indexText a.index ++ ":" ++ Hex.padded 2 a.subIndex.toNat

theorem key_inj {a b : Address} (h : a.key = b.key) : a = b := by
  have ha := a.subIndex.toNat_lt
  have hb := b.subIndex.toNat_lt
  simp only [key] at h
  have hi : a.index.toNat = b.index.toNat := by omega
  have hs : a.subIndex.toNat = b.subIndex.toNat := by omega
  cases a; cases b
  simp only [Address.mk.injEq]
  exact ⟨UInt16.toNat_inj.1 hi, UInt8.toNat_inj.1 hs⟩

instance : LT Address where
  lt a b := a.index < b.index ∨ a.index = b.index ∧ a.subIndex < b.subIndex

instance : LE Address where
  le a b := ¬b < a

theorem lt_iff {a b : Address} :
    a < b ↔ a.index < b.index ∨ a.index = b.index ∧ a.subIndex < b.subIndex := Iff.rfl

instance : DecidableLT Address := fun _ _ => decidable_of_iff _ lt_iff.symm

theorem lt_iff_key_lt {a b : Address} : a < b ↔ a.key < b.key := by
  have ha := a.subIndex.toNat_lt
  have hb := b.subIndex.toNat_lt
  rw [lt_iff, UInt16.lt_iff_toNat_lt, UInt8.lt_iff_toNat_lt, ← UInt16.toNat_inj]
  unfold key
  omega

theorem le_iff_key_le {a b : Address} : a ≤ b ↔ a.key ≤ b.key :=
  (not_congr lt_iff_key_lt).trans Nat.not_lt

instance : Std.IsLinearOrder Address where
  le_refl a := le_iff_key_le.2 (Nat.le_refl _)
  le_trans a b c h h' := le_iff_key_le.2 (Nat.le_trans (le_iff_key_le.1 h) (le_iff_key_le.1 h'))
  le_antisymm a b h h' := key_inj (Nat.le_antisymm (le_iff_key_le.1 h) (le_iff_key_le.1 h'))
  le_total a b := by
    rw [le_iff_key_le, le_iff_key_le]
    exact Nat.le_total ..

instance : Std.LawfulOrderLT Address where
  lt_iff a b := by
    rw [lt_iff_key_lt, le_iff_key_le, le_iff_key_le]
    omega

/-- The addresses of an index are those from its first to its last sub-index. -/
theorem index_eq_iff {a : Address} {index : UInt16} :
    a.index = index ↔ ¬a < ⟨index, 0⟩ ∧ ¬(⟨index, 255⟩ : Address) < a := by
  have ha := a.subIndex.toNat_lt
  rw [lt_iff_key_lt, lt_iff_key_lt, ← UInt16.toNat_inj]
  have hlast : (255 : UInt8).toNat = 255 := rfl
  have hfirst : (0 : UInt8).toNat = 0 := rfl
  simp only [key, hlast, hfirst]
  omega

end Address

end Canopen
