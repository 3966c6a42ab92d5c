import Canopen.Json.Source
import Canopen.Proofs.Text.Hex
/-!
# Texts in quotes

Inside a text a character stands for itself, or for another one after a backslash. Whatever characters
a text has, its end is found in what is written of it (`Json.cutText_escaped`), and the same text is
read from it (`Json.textOf?_escaped`).
-/
namespace Canopen.Json

open Text

variable {c : Char} {cs : List Char}

/-- How a character can be written inside a text: as it is, with a letter, or with its number. -/
inductive Escaped (c : Char) : List Char → Prop where
  | plain (hquote : c ≠ '"') (hslash : c ≠ '\\') (hvisible : 32 ≤ c.toNat) : Escaped c [c]
  | lettered {e : Char} (h : simpleEscape? e = some c) : Escaped c ['\\', e]
  | numbered {a b d e : Char} (hlow : c.toNat < 0xD800)
      (h : ∀ rest, readHex4 (a :: b :: d :: e :: rest) = some (c.toNat, rest)) :
      Escaped c ['\\', 'u', a, b, d, e]

theorem escaped_escape (c : Char) : Escaped c (escape c) := by
  have hself : Char.ofNat c.toNat = c := Char.ofNat_toNat c
  unfold escape
  split
  · subst_vars; exact .lettered rfl
  split
  · subst_vars; exact .lettered rfl
  split
  · subst_vars; exact .lettered rfl
  split
  · subst_vars; exact .lettered rfl
  split
  · subst_vars; exact .lettered rfl
  split
  · rename_i hnumber
    rw [← hself, hnumber]
    exact .lettered rfl
  split
  · rename_i hnumber
    rw [← hself, hnumber]
    exact .lettered rfl
  split
  · rename_i hcontrol
    have hhigh := Hex.digitValue?_digit (c.toNat / 16) (by omega)
    have hlow := Hex.digitValue?_digit (c.toNat % 16) (by omega)
    have hzero : Hex.digitValue? '0' = some 0 := rfl
    have hnumber : ((0 * 16 + 0) * 16 + c.toNat / 16) * 16 + c.toNat % 16 = c.toNat := by omega
    refine .numbered (by omega) fun rest => ?_
    simp only [readHex4, hzero, hhigh, hlow, hnumber]
  · exact .plain (by assumption) (by assumption) (by omega)

theorem Escaped.length_pos (h : Escaped c cs) : 0 < cs.length := by cases h <;> exact Nat.succ_pos _

/-- A character is passed over, however it is written. -/
theorem Escaped.cutText (h : Escaped c cs) (fuel : Nat) (acc rest : List Char) :
    cutText (fuel + 1) acc (cs ++ rest) = cutText fuel (cs.reverse ++ acc) rest := by
  cases h with
  | plain hquote hslash hvisible =>
    have hnot : ¬c.toNat < 32 := by omega
    simp [Json.cutText, hnot]
  | @lettered e h =>
    have hu : e ≠ 'u' := by
      rintro rfl
      contradiction
    simp [Json.cutText, escapeLength?, h]
  | numbered hlow h => simp [Json.cutText, escapeLength?, h]

/-- A character is read, however it is written. -/
theorem Escaped.unescape (h : Escaped c cs) (fuel : Nat) (acc rest : List Char) :
    unescape (fuel + 1) acc (cs ++ rest) = unescape fuel (c :: acc) rest := by
  cases h with
  | plain hquote hslash hvisible => simp [Json.unescape, hslash]
  | @lettered e h =>
    have hu : e ≠ 'u' := by
      rintro rfl
      contradiction
    simp [Json.unescape, h]
  | @numbered a b d e hlow h =>
    have hhigh : ¬0xD800 ≤ c.toNat := by omega
    have hlast : ¬0xDC00 ≤ c.toNat := by omega
    have hcode : readCodePoint (a :: b :: d :: e :: rest) = some (c, rest) := by
      simp [readCodePoint, h, hhigh, hlast]
    simp [Json.unescape, hcode]

/-- The end of a text is its first quote that is not escaped. -/
theorem cutText_escaped (cs : List Char) {fuel : Nat} (h : cs.length < fuel) (acc rest : List Char) :
    cutText fuel acc (cs.flatMap escape ++ '"' :: rest) =
      some ((cs.flatMap escape).reverse ++ acc, rest) := by
  induction cs generalizing fuel acc with
  | nil =>
    obtain ⟨fuel, rfl⟩ := Nat.exists_eq_add_one.mpr h
    rfl
  | cons c cs ih =>
    obtain ⟨fuel, rfl⟩ := Nat.exists_eq_add_one.mpr (Nat.zero_lt_of_lt h)
    rw [List.flatMap_cons, List.append_assoc, (escaped_escape c).cutText,
      ih (Nat.lt_of_succ_lt_succ h)]
    simp

theorem unescape_escaped (cs : List Char) {fuel : Nat} (h : cs.length < fuel) (acc : List Char) :
    unescape fuel acc (cs.flatMap escape) = some (cs.reverse ++ acc) := by
  induction cs generalizing fuel acc with
  | nil =>
    obtain ⟨fuel, rfl⟩ := Nat.exists_eq_add_one.mpr h
    rfl
  | cons c cs ih =>
    obtain ⟨fuel, rfl⟩ := Nat.exists_eq_add_one.mpr (Nat.zero_lt_of_lt h)
    rw [List.flatMap_cons, (escaped_escape c).unescape, ih (Nat.lt_of_succ_lt_succ h)]
    simp

theorem length_le_length_escaped (cs : List Char) : cs.length ≤ (cs.flatMap escape).length := by
  induction cs with
  | nil => exact Nat.le_refl 0
  | cons c cs ih =>
    have hpos := (escaped_escape c).length_pos
    rw [List.flatMap_cons, List.length_append, List.length_cons]
    omega

/-- The same text is read from what is written of it. -/
theorem textOf?_escaped (s : String) : textOf? (String.ofList (s.toList.flatMap escape)) = some s := by
  have hfuel := length_le_length_escaped s.toList
  simp only [textOf?, String.toList_ofList]
  rw [unescape_escaped s.toList (by omega)]
  simp

end Canopen.Json
