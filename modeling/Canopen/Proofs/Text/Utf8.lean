import Canopen.Text.Utf8
import Mathlib.Data.List.Basic
/-!
# Texts and their bytes

A text has the bytes of its characters in turn. It is read from them and from no others
(`Text.Utf8.decode_encode`, `Text.Utf8.encode_of_decode`), and a plain character has one byte, its number.
-/
namespace Canopen.Text.Utf8

theorem decode_encode (s : String) : decode (encode s) = .ok s := by
  have hbytes : ByteArray.mk (encode s).toArray = s.toByteArray := by simp [encode]
  have htext : String.fromUTF8? s.toByteArray = some s := dif_pos s.isValidUTF8
  rw [decode, hbytes, htext]

theorem encode_of_decode {data : List UInt8} {s : String} (h : decode data = .ok s) :
    encode s = data := by
  unfold decode at h
  split at h
  · rename_i text htext
    cases h
    unfold String.fromUTF8? at htext
    split at htext <;> cases htext
    rfl
  · contradiction

/-- Only the character zero has a byte that is zero. -/
theorem not_mem_utf8EncodeChar {c : Char} (h : c ≠ '\x00') : 0 ∉ String.utf8EncodeChar c := by
  have hpos : c.val.toNat ≠ 0 := fun hzero => h (Char.ext (UInt32.toNat_inj.mp hzero))
  fun_cases String.utf8EncodeChar <;> simp [← UInt8.toNat_inj] <;> omega

/-- The bytes of plain characters are the numbers of these. -/
theorem map_encode_of_plain {s : String} (h : ∀ c ∈ s.toList, c.toNat < 128) :
    (encode s).map (fun b => Char.ofNat b.toNat) = s.toList := by
  rw [encode_eq_flatMap]
  generalize s.toList = cs at h
  induction cs with
  | nil => rfl
  | cons c cs ih =>
    have hc := h c (.head cs)
    have hnumber : (UInt8.ofNat c.toNat).toNat = c.toNat :=
      UInt8.toNat_ofNat_of_lt' (Nat.lt_trans hc (by decide))
    have hbyte : (String.utf8EncodeChar c).map (fun b => Char.ofNat b.toNat) = [c] := by
      rw [utf8EncodeChar_of_plain hc, List.map_singleton, hnumber, Char.ofNat_toNat]
    rw [List.flatMap_cons, List.map_append, hbyte, ih fun c' hc' => h c' (.tail c hc')]
    rfl

end Canopen.Text.Utf8
