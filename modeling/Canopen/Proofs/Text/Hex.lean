import Canopen.Text.Blank
import Canopen.Text.Hex
import Canopen.Proofs.Text.Utf8
/-!
# Bytes in base sixteen

Each byte is written as two digits, and bytes of any number are read back from their text
(`Text.Hex.decode_encode`).
-/
namespace Canopen.Text.Hex

/-- The digits are plain characters, none of which is a mark or a separator. -/
theorem digit_plain : ∀ n < 16, (digit n).toNat < 128 ∧ digit n ≠ 'x' ∧ digit n ≠ ':' ∧
    isBlank (digit n) = false := by
  decide

theorem exists_digit_of_mem {bytes : List UInt8} {c : Char} (h : c ∈ encodeChars bytes) :
    ∃ n < 16, c = digit n := by
  obtain ⟨b, -, hc⟩ := List.mem_flatMap.mp h
  have hb := b.toNat_lt
  rcases List.mem_cons.mp hc with rfl | hc
  · exact ⟨b.toNat / 16, by omega, rfl⟩
  · exact ⟨b.toNat % 16, by omega, List.mem_singleton.mp hc⟩

theorem length_encodeChars (bytes : List UInt8) :
    (encodeChars bytes).length = 2 * bytes.length := by
  induction bytes with
  | nil => rfl
  | cons b rest ih =>
    rw [List.length_cons, encodeChars, List.flatMap_cons, List.length_append, ← encodeChars, ih]
    simp only [List.length_cons, List.length_nil]
    omega

/-- Bytes are read back from their hexadecimal text. -/
theorem decode_encode (bytes : List UInt8) : decode (encode bytes) = .ok bytes := by
  have hplain : ∀ c ∈ (encode bytes).toList, c.toNat < 128 := by
    rw [encode, String.toList_ofList]
    intro c hc
    obtain ⟨n, hn, rfl⟩ := exists_digit_of_mem hc
    exact (digit_plain n hn).1
  have hchars : (encode bytes).toUTF8.data.toList.map (fun b => Char.ofNat b.toNat) =
      encodeChars bytes := by
    have h := Utf8.map_encode_of_plain hplain
    rwa [encode, String.toList_ofList] at h
  have heven : (encodeChars bytes).length % 2 ≠ 1 := by
    rw [length_encodeChars]
    omega
  rw [decode, hchars, decodeChars, if_neg heven, decodePairs_encodeChars]

end Canopen.Text.Hex
