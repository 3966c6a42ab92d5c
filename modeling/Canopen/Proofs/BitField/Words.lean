import Canopen.Proofs.BitField.Bits
/-!
# Bit fields in words of 64 bits

In a word of 64 bits a shift can go wrong: there is none by 64 places or more, and what is shifted out
at the top is lost. Here the masks of bit fields are computed, and values extracted and packed, with
shifts that are refused where that would happen. None is ever refused, neither for the fields there are
(`BitField.checkedMask?_eq`, `BitField.checkedExtract?_eq`, `BitField.checkedPack?_eq`) nor where a range
of bits is still to be looked at (`checkedRangeFault?_eq`).
-/
namespace Canopen

namespace Word

/-- Shifts a word to the left, if there is such a shift and it loses nothing. -/
def shiftLeft? (word : BitVec 64) (amount : Nat) : Option (BitVec 64) :=
  if amount < 64 ∧ word.toNat * 2 ^ amount < 2 ^ 64 then some (word <<< amount) else none

def shiftRight? (word : BitVec 64) (amount : Nat) : Option (BitVec 64) :=
  if amount < 64 then some (word >>> amount) else none

/-- Takes one away, if the word is not zero. -/
def pred? (word : BitVec 64) : Option (BitVec 64) := if 0 < word.toNat then some (word - 1) else none

/-- The word of which the lowest bits are set. All 64 of them are not reached by a shift. -/
def ones? (width : Nat) : Option (BitVec 64) :=
  if 64 ≤ width then some (BitVec.allOnes 64) else (shiftLeft? 1 width).bind pred?

theorem shiftLeft?_eq {word : BitVec 64} {amount : Nat} (hamount : amount < 64)
    (h : word.toNat * 2 ^ amount < 2 ^ 64) : shiftLeft? word amount = some (word <<< amount) :=
  if_pos ⟨hamount, h⟩

theorem toNat_shiftLeft {word : BitVec 64} {amount : Nat} (h : word.toNat * 2 ^ amount < 2 ^ 64) :
    (word <<< amount).toNat = word.toNat * 2 ^ amount := by
  rw [BitVec.toNat_shiftLeft, Nat.shiftLeft_eq, Nat.mod_eq_of_lt h]

theorem ones?_eq {width : Nat} (h : width ≤ 64) :
    ones? width = some (BitVec.ofNat 64 (2 ^ width - 1)) := by
  unfold ones?
  by_cases hall : 64 ≤ width
  · have hwidth : width = 64 := by omega
    subst hwidth
    rfl
  · have hpow : 2 ^ width < 2 ^ 64 := Nat.pow_lt_pow_right (by decide) (by omega)
    have hpos : 0 < 2 ^ width := Nat.two_pow_pos width
    have hone : (1 : BitVec 64).toNat * 2 ^ width = 2 ^ width := Nat.one_mul _
    have htop : ((1 : BitVec 64) <<< width).toNat = 2 ^ width := by
      rw [toNat_shiftLeft (by omega), hone]
    have hpred : (1 : BitVec 64) <<< width - 1 = BitVec.ofNat 64 (2 ^ width - 1) := by
      refine BitVec.eq_of_toNat_eq ?_
      rw [BitVec.toNat_sub_of_le (by rw [BitVec.le_def, htop]; exact hpos), htop, BitVec.toNat_ofNat,
        Nat.mod_eq_of_lt (by omega)]
      rfl
    rw [if_neg hall, shiftLeft?_eq (by omega) (by omega), Option.bind_some, pred?, if_pos (by omega),
      hpred]

end Word

namespace BitField

variable {f g : BitField}

def checkedMask? (f : BitField) : Option (BitVec 64) :=
  (Word.ones? f.width).bind fun ones => Word.shiftLeft? ones f.offset

def checkedOverlaps? (f g : BitField) : Option Bool := do
  let mask ← f.checkedMask?
  let other ← g.checkedMask?
  return mask &&& other != 0

def checkedExtract? (f : BitField) (raw : BitVec 64) : Option (BitVec 64) := do
  let shifted ← Word.shiftRight? raw f.offset
  let largest ← Word.ones? f.width
  return shifted &&& largest

/-- Sets the field's bits in a pattern. Only a value that the field has bits enough for is shifted. -/
def checkedPack? (f : BitField) (raw value : BitVec 64) :
    Option (Except DictionaryError (BitVec 64)) := do
  let largest ← Word.ones? f.width
  if largest.toNat < value.toNat then
    return .error (.outOfRange (.integer value.toNat 0 largest.toNat))
  else
    let mask ← f.checkedMask?
    let placed ← Word.shiftLeft? value f.offset
    return .ok ((raw &&& ~~~mask) ||| placed)

theorem offset_lt (f : BitField) : f.offset < 64 := by
  have hfits := f.fits
  have hpos := f.width_pos
  omega

/-- In its place a value of the field lies within the word. -/
theorem mul_two_pow_lt {n : Nat} (h : n < 2 ^ f.width) : n * 2 ^ f.offset < 2 ^ 64 :=
  calc
    n * 2 ^ f.offset < 2 ^ f.width * 2 ^ f.offset := Nat.mul_lt_mul_of_pos_right h (Nat.two_pow_pos _)
    _ = 2 ^ (f.offset + f.width) := by rw [Nat.pow_add, Nat.mul_comm]
    _ ≤ 2 ^ 64 := Nat.pow_le_pow_right (by decide) f.fits

theorem ones?_width (f : BitField) : Word.ones? f.width = some f.maxValue := Word.ones?_eq f.width_le

theorem checkedMask?_eq (f : BitField) : f.checkedMask? = some f.mask := by
  have hlargest : f.maxValue.toNat < 2 ^ f.width := by
    rw [toNat_maxValue]
    exact Nat.sub_lt (Nat.two_pow_pos _) (by decide)
  rw [checkedMask?, ones?_width, Option.bind_some]
  exact Word.shiftLeft?_eq f.offset_lt (mul_two_pow_lt hlargest)

theorem checkedOverlaps?_eq (f g : BitField) : f.checkedOverlaps? g = some (f.overlaps g) := by
  rw [checkedOverlaps?, checkedMask?_eq, checkedMask?_eq]
  rfl

theorem checkedExtract?_eq (f : BitField) (raw : BitVec 64) :
    f.checkedExtract? raw = some (f.extract raw) := by
  have hshift : Word.shiftRight? raw f.offset = some (raw >>> f.offset) := if_pos f.offset_lt
  rw [checkedExtract?, hshift, ones?_width]
  rfl

theorem checkedPack?_eq (f : BitField) (raw value : BitVec 64) :
    f.checkedPack? raw value = some (f.pack raw value) := by
  rw [checkedPack?, ones?_width, pack, checkedMask?_eq]
  simp only [bind, Option.bind, pure]
  split
  · rfl
  · rename_i hfits
    have hpos : 0 < 2 ^ f.width := Nat.two_pow_pos f.width
    have hless : value.toNat < 2 ^ f.width := by
      rw [toNat_maxValue] at hfits
      omega
    rw [Word.shiftLeft?_eq f.offset_lt (mul_two_pow_lt hless)]

end BitField

def checkedRangeFault? (name : String) (offset width : Nat) (labels : Option Labels) (bits : Nat) :
    Option (Option DefinitionFault) :=
  if width = 0 then some (some (.emptyField name))
  else if bits < offset + width then some (some (.fieldBeyondValue name offset (offset + width) bits))
  else do
    let largest ← Word.ones? width
    match (labels.getD []).find? fun p => largest.toNat < p.1.toNat with
    | some p => some (some (.labelBeyondField name p.1.toNat))
    | none => some none

/-- The largest value of a range is only computed where the range lies within the value. -/
theorem checkedRangeFault?_eq {name : String} {offset width bits : Nat} {labels : Option Labels}
    (h : bits ≤ 64) : checkedRangeFault? name offset width labels bits =
      some (bitRangeFault? name offset width labels bits) := by
  unfold checkedRangeFault? bitRangeFault?
  split
  · rfl
  · split
    · rfl
    · have hpow : 2 ^ width ≤ 2 ^ 64 := Nat.pow_le_pow_right (by decide) (by omega)
      have hpos : 0 < 2 ^ width := Nat.two_pow_pos width
      have hlargest : (BitVec.ofNat 64 (2 ^ width - 1)).toNat = 2 ^ width - 1 := by
        rw [BitVec.toNat_ofNat, Nat.mod_eq_of_lt (by omega)]
      have hsame : (fun p : BitVec 64 × String =>
          decide ((BitVec.ofNat 64 (2 ^ width - 1)).toNat < p.1.toNat)) =
          fun p => decide (2 ^ width ≤ p.1.toNat) := by
        funext p
        rw [hlargest, decide_eq_decide]
        omega
      rw [Word.ones?_eq (by omega)]
      simp only [bind, Option.bind, hsame]
      cases (labels.getD []).find? fun p => decide (2 ^ width ≤ p.1.toNat) <;> rfl

end Canopen
