import Canopen.Proofs.Cli.NumberArgument
import Canopen.Proofs.Text.Hex
import Canopen.Proofs.Value.Coding
/-!
# Values that are shown and given back

What is shown of a number, a truth value or bytes is read as this value again (`Cli.readValue_text`), so that
writing back what has been read stores the bytes of the value (`Cli.readValue_text_of_decode`). Bytes are
shown in base sixteen after one mark, and no digit takes part in another mark.
-/
namespace Canopen

open Number Text

namespace DataType

variable {t : DataType} {data : List UInt8} {v : Value}

def kind : DataType → Value.Kind
  | boolean => .bool
  | signed _ => .int
  | unsigned _ => .uint
  | real32 | real64 => .float
  | visibleString _ => .string
  | octetString _ | domain => .bytes

theorem decodeBytes_of_decode (h : t.decode data = .ok v) : t.decodeBytes data = .ok v := by
  unfold decode at h
  split at h
  · split at h
    · exact h
    · contradiction
  · exact h

theorem kind_of_decode (h : t.decode data = .ok v) : v.kind = t.kind := by
  have hbytes := decodeBytes_of_decode h
  cases t with
  | visibleString length =>
    rw [decodeBytes] at hbytes
    split at hbytes <;> cases hbytes
    rfl
  | _ =>
    cases hbytes
    rfl

end DataType

namespace Cli

section Numbers

theorem isBlank_of_mem_toString_int {n : Int} {c : Char} (h : c ∈ (toString n).toList) :
    isBlank c = false := by
  cases n with
  | ofNat n => exact isBlank_of_mem_toString h
  | negSucc n =>
    rw [toList_toString_negSucc, List.mem_cons] at h
    rcases h with rfl | h
    · rfl
    · exact isBlank_of_mem_toString h

/-- The text of a whole number with a sign is read as this number, the least one of 64 bits included. -/
theorem readSigned_text (v : Int64) : readSigned (toString v.toInt) = .ok v := by
  have hlow := v.le_toInt
  have hhigh := v.toInt_lt
  rw [readSigned_eq_ok_iff]
  cases hn : v.toInt with
  | ofNat n =>
    have hparse : parseNumber (toString n) = .ok n := by
      rw [hn, Int.ofNat_eq_natCast] at hhigh
      exact parseNumber_toString (by omega)
    exact .plain (parseNumber_eq_ok_iff.mp hparse).1
  | negSucc n =>
    have hparse : parseNumber (toString (n + 1)) = .ok (n + 1) := by
      rw [hn, Int.negSucc_eq] at hlow
      exact parseNumber_toString (by omega)
    rw [toList_toString_negSucc]
    exact .minus (parseNumber_eq_ok_iff.mp hparse).1

end Numbers

section Bytes

variable {bytes : List UInt8} {cs : List Char}

theorem toList_text_bytes (bytes : List UInt8) :
    (Value.bytes bytes).text.toList = '0' :: 'x' :: Hex.encodeChars bytes := by
  simp [Value.text, Hex.encode]

theorem isBlank_of_mem_text_bytes {c : Char} (h : c ∈ (Value.bytes bytes).text.toList) :
    isBlank c = false := by
  rw [toList_text_bytes, List.mem_cons, List.mem_cons] at h
  rcases h with rfl | rfl | h
  · rfl
  · rfl
  · obtain ⟨n, hn, rfl⟩ := Hex.exists_digit_of_mem h
    exact (Hex.digit_plain n hn).2.2.2

/-- Digits are not taken for a mark. -/
theorem dropHexMarks_of_not_mem (h : 'x' ∉ cs) : dropHexMarks cs = cs := by
  unfold dropHexMarks
  split
  · simp at h
  · rfl

/-- Only the one mark in front of bytes is dropped, with whatever digits they begin. -/
theorem readBytes_text (bytes : List UInt8) : readBytes (Value.bytes bytes).text = .ok bytes := by
  have hmark : 'x' ∉ Hex.encodeChars bytes := by
    intro h
    obtain ⟨n, hn, hx⟩ := Hex.exists_digit_of_mem h
    exact (Hex.digit_plain n hn).2.1 hx.symm
  have hdigits : ∀ c ∈ Hex.encodeChars bytes, (!isBlank c && c ≠ ':') = true := by
    intro c hc
    obtain ⟨n, hn, rfl⟩ := Hex.exists_digit_of_mem hc
    obtain ⟨-, -, hcolon, hblank⟩ := Hex.digit_plain n hn
    simp [hcolon, hblank]
  have hdecode : Hex.decode (String.ofList (Hex.encodeChars bytes)) = .ok bytes :=
    Hex.decode_encode bytes
  rw [readBytes, toList_text_bytes, dropHexMarks, dropHexMarks_of_not_mem hmark]
  simp only [List.filter_eq_self.mpr hdigits, hdecode]

end Bytes

/-- Apart from floating-point numbers and strings, the text of a value is read as this value. -/
theorem readValue_text {t : DataType} {v : Value} (hkind : v.kind = t.kind) (hfloat : v.kind ≠ .float)
    (hstring : v.kind ≠ .string) : readValue t v.text = .ok v := by
  have htrim : trim v.text = v.text := by
    cases v with
    | bool b => cases b <;> rfl
    | int v => exact trim_of_not_blank fun c => isBlank_of_mem_toString_int
    | uint v => exact trim_of_not_blank fun c => isBlank_of_mem_toString
    | float x => contradiction
    | str s => contradiction
    | bytes b => exact trim_of_not_blank fun c => isBlank_of_mem_text_bytes
  simp only [readValue.eq_def, htrim]
  cases t with
  | boolean =>
    cases v <;> cases hkind
    rename_i b
    cases b <;> rfl
  | signed w =>
    cases v <;> cases hkind
    rw [Value.text, readSigned_text]
    rfl
  | unsigned w =>
    cases v <;> cases hkind
    rename_i v
    have hparse : parseNumber (toString v.toNat) = .ok v.toNat := parseNumber_toString v.toNat_lt
    simp only [Value.text, hparse, ofDictionary, within, Except.map, UInt64.ofNat_toNat]
  | real32 | real64 => contradiction
  | visibleString length => contradiction
  | octetString length | domain =>
    cases v <;> cases hkind
    rw [readBytes_text]
    rfl

/-- What is shown of a value that bytes stand for can be written back: it is read as this value, whose
bytes are those it was decoded from, but for a truth value, which has one byte that is zero or one. -/
theorem readValue_text_of_decode {t : DataType} {data : List UInt8} {v : Value}
    (ht : t.isInteger ∨ t = .boolean ∨ (∃ length, t = .octetString length) ∨ t = .domain)
    (h : t.decode data = .ok v) :
    readValue t v.text = .ok v ∧
      t.encode v = .ok (if t = .boolean then data.map fun b => if b = 0 then 0 else 1 else data) := by
  have htype : t.isFloat = false ∧ t.kind ≠ .float ∧ t.kind ≠ .string := by
    rcases ht with hinteger | rfl | ⟨length, rfl⟩ | rfl
    · cases t <;> first | contradiction | simp [DataType.isFloat, DataType.kind]
    all_goals simp [DataType.isFloat, DataType.kind]
  obtain ⟨hfloat, hnumber, hstring⟩ := htype
  have hkind := DataType.kind_of_decode h
  constructor
  · rw [← hkind] at hnumber hstring
    exact readValue_text hkind hnumber hstring
  · exact DataType.encode_of_decode_canonical hfloat h

/-- The least and the greatest number of 64 bits, no bytes at all, bytes that are shown with a zero in
front, and a byte that stands for true and comes back as one. -/
theorem readValue_text_of_decode_samples :
    readValue (.signed .w64) "-9223372036854775808" = .ok (.int Int64.minValue) ∧
      readValue (.unsigned .w64) "18446744073709551615" = .ok (.uint (-1)) ∧
      readValue .domain "0x" = .ok (.bytes []) ∧
      readValue (.octetString 2) "0x0abc" = .ok (.bytes [0x0A, 0xBC]) ∧
      (readValue .boolean "true" = .ok (.bool true) ∧ DataType.boolean.encode (.bool true) = .ok [1]) := by
  have hleast : (DataType.signed .w64).decode [0, 0, 0, 0, 0, 0, 0, 0x80] = .ok (.int Int64.minValue) := by
    rfl
  have hgreatest : (DataType.unsigned .w64).decode (List.replicate 8 0xFF) = .ok (.uint (-1)) := by
    rfl
  have hempty : DataType.domain.decode [] = .ok (.bytes []) := by rfl
  have hzero : (DataType.octetString 2).decode [0x0A, 0xBC] = .ok (.bytes [0x0A, 0xBC]) := by rfl
  have htrue : DataType.boolean.decode [7] = .ok (.bool true) := by rfl
  have hleastText : "-9223372036854775808" = (Value.int Int64.minValue).text := by decide +kernel
  have hgreatestText : "18446744073709551615" = (Value.uint (-1)).text := by decide +kernel
  have hemptyText : "0x" = (Value.bytes []).text := by decide +kernel
  have hzeroText : "0x0abc" = (Value.bytes [0x0A, 0xBC]).text := by decide +kernel
  obtain ⟨hread, hencode⟩ := readValue_text_of_decode (.inr (.inl rfl)) htrue
  rw [if_pos rfl] at hencode
  rw [hleastText, hgreatestText, hemptyText, hzeroText]
  exact ⟨(readValue_text_of_decode (.inl rfl) hleast).1, (readValue_text_of_decode (.inl rfl) hgreatest).1,
    (readValue_text_of_decode (.inr (.inr (.inr rfl))) hempty).1,
    (readValue_text_of_decode (.inr (.inr (.inl ⟨2, rfl⟩))) hzero).1, hread, hencode⟩

end Cli

end Canopen
