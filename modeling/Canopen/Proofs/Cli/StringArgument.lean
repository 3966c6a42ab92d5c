import Canopen.Client
import Canopen.Cli.Argument
import Canopen.Proofs.Text.Blank
import Canopen.Proofs.Value.FixedLength
/-!
# Strings given for entries

Blanks at both ends of an argument do not count, of whatever type its entry is. So a string that is
written by a command is stored as it was given if and only if it neither begins nor ends with a blank, and
writing back the string that was shown stores what was read under the same condition (`Cli.string_kept_iff`).
-/
namespace Canopen

open DataType Text

/-- Fewer characters have no more bytes. -/
theorem Text.Strips.length_encode_le {s s' : String} (h : Strips s.toList s'.toList) :
    (Utf8.encode s').length ≤ (Utf8.encode s).length := by
  obtain ⟨-, before, after, hsplit, -⟩ := h
  rw [Utf8.encode_eq_flatMap, Utf8.encode_eq_flatMap, hsplit, List.flatMap_append, List.flatMap_append,
    List.length_append, List.length_append]
  omega

namespace Cli

variable {length : Nat} {s s' : String} {bytes bytes' : List UInt8}

/-- Holds of a string given for an entry that holds a string, of the string that is read from it, and of the
bytes that are to be stored. -/
structure GivenString (length : Nat) (s s' : String) (bytes' : List UInt8) : Prop where
  strips : Strips s.toList s'.toList
  read : readValue (visibleString length) s = .ok (.str s')
  encoded : (visibleString length).encode (.str s') = .ok bytes'
  asked : ∀ node e, e.type = visibleString length → e.access.isWritable = true →
    Client.write node e (.str s') = Client.acknowledge (.writeEntry node e.address bytes')

theorem exists_givenString (h : (visibleString length).encode (.str s) = .ok bytes) :
    ∃ s' bytes', GivenString length s s' bytes' := by
  have hstrips := strips_trim s
  have hlength : ¬length < (Utf8.encode s).length := by
    intro hlong
    rw [encode, encodePadded, if_pos hlong] at h
    contradiction
  have hshort : ¬length < (Utf8.encode (trim s)).length := by
    have hle := hstrips.length_encode_le
    omega
  have hencoded : (visibleString length).encode (.str (trim s)) =
      .ok (Bytes.padTo length (Utf8.encode (trim s))) := if_neg hshort
  refine ⟨trim s, _, hstrips, rfl, hencoded, fun node e ht he => ?_⟩
  simp only [Client.write, Client.writeRaw, Client.check, Entry.encode, ht, he, hencoded, if_true]

theorem GivenString.eq_iff (h : GivenString length s s' bytes') : s' = s ↔ Bare s.toList := by
  rw [← h.strips.eq_iff, String.toList_inj]

/-- The same bytes are stored only for the same string: what has been taken away are blanks, and not the
zeros that a string is filled up with. -/
theorem GivenString.bytes_eq_iff (h : GivenString length s s' bytes')
    (hs : (visibleString length).encode (.str s) = .ok bytes) : bytes' = bytes ↔ Bare s.toList := by
  rw [← h.eq_iff]
  constructor
  · rintro rfl
    obtain ⟨r, hr⟩ := exists_trims_text '\x00' s
    obtain ⟨r', hr'⟩ := exists_trims_text '\x00' s'
    have hdecode := decode_of_encode_visibleString hs hr
    rw [decode_of_encode_visibleString h.encoded hr'] at hdecode
    cases hdecode
    have hcount : s'.toList.count '\x00' = s.toList.count '\x00' := h.strips.count_eq rfl
    exact String.toList_inj.mp (hr'.eq_of_count_eq hr hcount)
  · rintro rfl
    have hsame := h.encoded.symm.trans hs
    cases hsame
    rfl

/-- A string that an entry can hold is read without the blanks at both ends, and what is stored is the string
that was given if and only if there are none. A string that was shown is written back under this
condition. -/
theorem string_kept_iff (length : Nat) :
    (∀ s bytes, (visibleString length).encode (.str s) = .ok bytes →
      ∃ s' bytes', GivenString length s s' bytes' ∧ (s' = s ↔ Bare s.toList) ∧
        (bytes' = bytes ↔ Bare s.toList)) ∧
    ∀ data s, (visibleString length).decode data = .ok (.str s) →
      ∃ s' bytes', GivenString length (Value.str s).text s' bytes' ∧ (bytes' = data ↔ Bare s.toList) := by
  constructor
  · intro s bytes h
    obtain ⟨s', bytes', hgiven⟩ := exists_givenString h
    exact ⟨s', bytes', hgiven, hgiven.eq_iff, hgiven.bytes_eq_iff h⟩
  · intro data s h
    have hencode : (visibleString length).encode (.str s) = .ok data :=
      encode_of_decode rfl (by simp) h
    obtain ⟨s', bytes', hgiven⟩ := exists_givenString hencode
    exact ⟨s', bytes', hgiven, hgiven.bytes_eq_iff hencode⟩

/-- A blank inside a string is kept, and one in front of a string that was shown is lost. -/
theorem string_kept_iff_samples :
    (visibleString 4).encode (.str "a b") = .ok [0x61, 0x20, 0x62, 0] ∧
      GivenString 4 "a b" "a b" [0x61, 0x20, 0x62, 0] ∧
      (visibleString 4).decode [0x20, 0x61, 0, 0] = .ok (.str " a") ∧
        ∃ s' bytes', GivenString 4 " a" s' bytes' ∧ bytes' ≠ [0x20, 0x61, 0, 0] := by
  have hinside : (visibleString 4).encode (.str "a b") = .ok [0x61, 0x20, 0x62, 0] := rfl
  have hshown : (visibleString 4).decode [0x20, 0x61, 0, 0] = .ok (.str " a") := rfl
  have hbare : Bare "a b".toList := by
    constructor <;> intro c hc <;> cases hc <;> rfl
  have hblank : ¬Bare " a".toList := by
    intro h
    have hfirst := h.1 ' ' rfl
    contradiction
  obtain ⟨hkept, hback⟩ := string_kept_iff 4
  obtain ⟨s', bytes', hgiven, hsame, hbytes⟩ := hkept _ _ hinside
  rw [hsame.mpr hbare, hbytes.mpr hbare] at hgiven
  obtain ⟨s', bytes', hgiven', hbytes'⟩ := hback _ _ hshown
  exact ⟨hinside, hgiven, hshown, s', bytes', hgiven', fun h => hblank (hbytes'.mp h)⟩

/-- Encoding accepts a string that begins with a blank, and decoding gives it, but it is read as another
one. -/
theorem not_always_kept :
    ¬(∀ length s bytes, (visibleString length).encode (.str s) = .ok bytes →
      readValue (visibleString length) s = .ok (.str s)) ∧
    ¬∀ length data s, (visibleString length).decode data = .ok (.str s) →
      readValue (visibleString length) (Value.str s).text = .ok (.str s) := by
  have hread : readValue (visibleString 4) " ab" = .ok (.str "ab") := rfl
  have hne : readValue (visibleString 4) " ab" ≠ .ok (.str " ab") := by
    rw [hread]
    simp
  constructor
  · intro h
    exact hne (h 4 " ab" [0x20, 0x61, 0x62, 0] rfl)
  · intro h
    exact hne (h 4 [0x20, 0x61, 0x62, 0] " ab" rfl)

end Cli

end Canopen
