import Canopen.Proofs.Value.Coding
import Mathlib.Data.List.DropRight
/-!
# Strings of fixed length

A string is filled up with zeros to the length of its type, and zeros at the end are not read as part of
it. So what comes back is the string without the zeros at its own end, which encoding accepts like any
others: a string is restored if and only if it does not end in a zero (`DataType.restored_iff_no_zero_at_end`).
-/
namespace Canopen

/-- Holds of a list and what is left of it after each `a` at its end has been taken away. -/
def Trims {α : Type} (a : α) (l rest : List α) : Prop :=
  rest.getLast? ≠ some a ∧ ∃ count, l = rest ++ List.replicate count a

section Trims

variable {α : Type} {a : α} {l rest : List α}

theorem exists_trims (a : α) (l : List α) : ∃ rest, Trims a l rest := by
  classical
  refine ⟨l.rdropWhile (· = a), fun hlast => ?_, (l.rtakeWhile (· = a)).length, ?_⟩
  · have hne : l.rdropWhile (· = a) ≠ [] := fun hnil => by
      rw [hnil] at hlast
      contradiction
    have hnot := List.rdropWhile_last_not (· = a) l hne
    rw [List.getLast?_eq_some_getLast hne] at hlast
    exact hnot (by simpa using hlast)
  · have hall : l.rtakeWhile (· = a) = List.replicate (l.rtakeWhile (· = a)).length a :=
      List.eq_replicate_iff.mpr ⟨rfl, fun b hb => by simpa using List.mem_rtakeWhile_imp hb⟩
    rw [← hall, List.rdropWhile_append_rtakeWhile]

theorem exists_trims_text (a : Char) (s : String) : ∃ s' : String, Trims a s.toList s'.toList := by
  obtain ⟨rest, hrest⟩ := exists_trims a s.toList
  exact ⟨String.ofList rest, by rwa [String.toList_ofList]⟩

/-- Nothing is taken away if and only if the list does not end in `a`. -/
theorem Trims.eq_iff (h : Trims a l rest) : rest = l ↔ l.getLast? ≠ some a := by
  obtain ⟨hlast, count, rfl⟩ := h
  constructor
  · intro hsame
    rwa [← hsame]
  · intro hne
    cases count with
    | zero => simp
    | succ count => simp [List.replicate_succ'] at hne

/-- Lists of which the same is left are equal, if `a` is as often in one as in the other. -/
theorem Trims.eq_of_count_eq [BEq α] [LawfulBEq α] {l' : List α} (h : Trims a l rest)
    (h' : Trims a l' rest) (hcount : l.count a = l'.count a) : l = l' := by
  obtain ⟨-, count, rfl⟩ := h
  obtain ⟨-, count', rfl⟩ := h'
  simp only [List.count_append, List.count_replicate_self] at hcount
  have hsame : count = count' := by omega
  rw [hsame]

end Trims

/-- Zeros at the end are dropped, and nothing before them. -/
theorem Bytes.dropTrailingZeros_append {b : List UInt8} (h : b.getLast? ≠ some 0) (count : Nat) :
    dropTrailingZeros (b ++ List.replicate count 0) = b := by
  have hself : b.reverse.dropWhile (· == 0) = b.reverse := by
    cases hb : b.reverse with
    | nil => rfl
    | cons last rest =>
      rw [← List.head?_reverse, hb] at h
      have hlast : last ≠ 0 := fun hzero => h (congrArg some hzero)
      exact List.dropWhile_cons_of_neg (by simpa using hlast)
  rw [dropTrailingZeros, List.reverse_append, List.reverse_replicate,
    List.dropWhile_append_of_pos (by simp [List.mem_replicate]), hself, List.reverse_reverse]

namespace Text.Utf8

/-- The zeros at the end of a text are those at the end of its bytes. -/
theorem trims_encode {s s' : String} (h : Trims '\x00' s.toList s'.toList) :
    Trims 0 (encode s) (encode s') := by
  obtain ⟨hlast, count, hs⟩ := h
  simp only [encode_eq_flatMap]
  refine ⟨fun hzero => ?_, count, ?_⟩
  · rcases List.eq_nil_or_concat s'.toList with hnil | ⟨first, c, hconcat⟩
    · rw [hnil] at hzero
      contradiction
    · rw [hconcat, List.concat_eq_append] at hlast hzero
      have hc : c ≠ '\x00' := by simpa using hlast
      rw [List.flatMap_append, List.getLast?_append_of_ne_nil _ (by simp)] at hzero
      have hmem := List.mem_of_getLast? hzero
      exact not_mem_utf8EncodeChar hc (by simpa using hmem)
  · have hzero : String.utf8EncodeChar '\x00' = [0] := rfl
    rw [hs, List.flatMap_append, List.flatMap_replicate, hzero, List.flatten_replicate_singleton]

end Text.Utf8

namespace DataType

open Text

variable {length : Nat} {bytes : List UInt8}

/-- Filling up with zeros leaves only zeros behind what has been trimmed. -/
theorem exists_of_encodePadded {b rest : List UInt8} (h : encodePadded length b = .ok bytes)
    (htrims : Trims 0 b rest) : bytes.length = length ∧ Bytes.dropTrailingZeros bytes = rest := by
  obtain ⟨hlast, count, rfl⟩ := htrims
  unfold encodePadded at h
  split at h
  · contradiction
  · rename_i hlength
    cases h
    refine ⟨Bytes.length_padTo (Nat.not_lt.mp hlength), ?_⟩
    rw [Bytes.padTo, List.append_assoc, ← List.replicate_add]
    exact Bytes.dropTrailingZeros_append hlast _

theorem decode_of_encode_visibleString {s s' : String}
    (h : (visibleString length).encode (.str s) = .ok bytes) (htrims : Trims '\x00' s.toList s'.toList) :
    (visibleString length).decode bytes = .ok (.str s') := by
  obtain ⟨hlength, hbytes⟩ := exists_of_encodePadded h (Utf8.trims_encode htrims)
  rw [decode_of_length rfl hlength, decodeBytes, hbytes, Utf8.decode_encode]

theorem decode_of_encode_octetString {b b' : List UInt8}
    (h : (octetString length).encode (.bytes b) = .ok bytes) (htrims : Trims 0 b b') :
    (octetString length).decode bytes = .ok (.bytes b') := by
  obtain ⟨hlength, hbytes⟩ := exists_of_encodePadded h htrims
  rw [decode_of_length rfl hlength, decodeBytes, hbytes]

/-- What has been encoded as a string of fixed length comes back without the zeros at its end, and so it
comes back as it was if and only if it does not end in a zero. -/
theorem restored_iff_no_zero_at_end (length : Nat) :
    (∀ s bytes, (visibleString length).encode (.str s) = .ok bytes →
      ((visibleString length).decode bytes = .ok (.str s) ↔ s.toList.getLast? ≠ some '\x00') ∧
        ∃ s', (visibleString length).decode bytes = .ok (.str s') ∧
          Trims '\x00' s.toList s'.toList) ∧
    ∀ b bytes, (octetString length).encode (.bytes b) = .ok bytes →
      ((octetString length).decode bytes = .ok (.bytes b) ↔ b.getLast? ≠ some 0) ∧
        ∃ b', (octetString length).decode bytes = .ok (.bytes b') ∧ Trims 0 b b' := by
  refine ⟨fun s bytes h => ?_, fun b bytes h => ?_⟩
  · obtain ⟨s', htrims⟩ := exists_trims_text '\x00' s
    have hdecode := decode_of_encode_visibleString h htrims
    refine ⟨?_, s', hdecode, htrims⟩
    rw [hdecode, ← htrims.eq_iff, String.toList_inj]
    simp
  · obtain ⟨b', htrims⟩ := exists_trims 0 b
    have hdecode := decode_of_encode_octetString h htrims
    refine ⟨?_, b', hdecode, htrims⟩
    rw [hdecode, ← htrims.eq_iff]
    simp

/-- A text with a zero inside, and bytes that end in zeros. -/
theorem restored_iff_no_zero_at_end_samples :
    (visibleString 4).encode (.str "a\x00b") = .ok [0x61, 0, 0x62, 0] ∧
      (visibleString 4).decode [0x61, 0, 0x62, 0] = .ok (.str "a\x00b") ∧
      (octetString 4).encode (.bytes [7, 0, 0]) = .ok [7, 0, 0, 0] ∧
        ¬(octetString 4).decode [7, 0, 0, 0] = .ok (.bytes [7, 0, 0]) := by
  have htext : (visibleString 4).encode (.str "a\x00b") = .ok [0x61, 0, 0x62, 0] := rfl
  have hbytes : (octetString 4).encode (.bytes [7, 0, 0]) = .ok [7, 0, 0, 0] := rfl
  obtain ⟨hstrings, hoctets⟩ := restored_iff_no_zero_at_end 4
  exact ⟨htext, (hstrings _ _ htext).1.mpr (by decide), hbytes,
    fun h => (hoctets _ _ hbytes).1.mp h rfl⟩

/-- Encoding accepts a text and bytes that end in a zero, and they come back without it. -/
theorem not_always_restored :
    ¬(∀ length s bytes, (visibleString length).encode (.str s) = .ok bytes →
      (visibleString length).decode bytes = .ok (.str s)) ∧
    ¬∀ length b bytes, (octetString length).encode (.bytes b) = .ok bytes →
      (octetString length).decode bytes = .ok (.bytes b) := by
  refine ⟨fun h => ?_, fun h => ?_⟩
  · have hrestored := h 4 "ab\x00" [0x61, 0x62, 0, 0] rfl
    have hdecode : (visibleString 4).decode [0x61, 0x62, 0, 0] = .ok (.str "ab") := rfl
    rw [hdecode] at hrestored
    simp at hrestored
  · have hrestored := h 2 [1, 0] [1, 0] rfl
    have hdecode : (octetString 2).decode [1, 0] = .ok (.bytes [1]) := rfl
    rw [hdecode] at hrestored
    simp at hrestored

end DataType

end Canopen
