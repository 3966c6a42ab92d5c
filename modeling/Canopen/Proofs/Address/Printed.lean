import Canopen.Proofs.Catalog.Indexes
import Canopen.Proofs.Number.Digits
/-!
# Addresses as they are written and read

Both parts of an address are written in base sixteen, but only the index has 0x before it. So the index
is read as it was written, and the digits of the sub-index are read in base ten: those of a sub-index
below ten stand for the same in both, others for another sub-index or for none
(`Address.parse_text`). An address that is shown therefore names its entry if and only if its sub-index
is below ten (`Catalog.shown_address_resolves_iff`).
-/
namespace Canopen

open Number Text

namespace Text.Hex

/-- A byte is written with two digits. -/
theorem toList_padded_two {n : Nat} (h : n < 256) :
    (padded 2 n).toList = [upperDigit (n / 16), upperDigit (n % 16)] := by
  have hshape : ∀ d < 16, d.digitChar.toUpper = upperDigit d := by decide
  have hlow : n % 16 < 16 := Nat.mod_lt n (by decide)
  rw [padded, String.toList_ofList, Nat.toDigits_eq_if (by decide)]
  by_cases hsmall : n < 16
  · have hhigh : n / 16 = 0 := Nat.div_eq_of_lt hsmall
    have hzero : upperDigit 0 = '0' := rfl
    simp [hsmall, hhigh, hzero, hshape n hsmall, Nat.mod_eq_of_lt hsmall]
  · have hhigh : n / 16 < 16 := by omega
    simp [hsmall, Nat.toDigits_of_lt_base hhigh, hshape _ hhigh, hshape _ hlow]

/-- In base ten only the digits below ten can be read. -/
theorem digitValue?_upperDigit : ∀ d < 16, Number.digitValue? 10 (upperDigit d) =
    if d < 10 then some d else none := by
  decide

theorem upperDigit_ne : ∀ d < 16, upperDigit d ≠ '+' ∧ upperDigit d ≠ 'x' ∧ upperDigit d ≠ 'X' ∧
    isBlank (upperDigit d) = false := by
  decide

end Text.Hex

namespace Number

variable {limit : Nat}

/-- Two digits of base sixteen are read in base ten if both are below ten. -/
theorem readPrefixed?_upperDigits {high low : Nat} (hhigh : high < 16) (hlow : low < 16)
    (hlimit : 100 ≤ limit) : readPrefixed? limit [Hex.upperDigit high, Hex.upperDigit low] =
      if high < 10 ∧ low < 10 then some (high * 10 + low) else none := by
  obtain ⟨hplus, hx, hX, -⟩ := Hex.upperDigit_ne high hhigh
  obtain ⟨-, hx', hX', -⟩ := Hex.upperDigit_ne low hlow
  rw [readPrefixed?_of_not_mem (by simp [Ne.symm hx, Ne.symm hx'])
    (by simp [Ne.symm hX, Ne.symm hX']), readUnsigned?]
  have hdrop : dropPlus [Hex.upperDigit high, Hex.upperDigit low] =
      [Hex.upperDigit high, Hex.upperDigit low] := by
    simp [dropPlus, hplus]
  have hread : readDigits? 10 [Hex.upperDigit high, Hex.upperDigit low] =
      digitsValue? 10 0 [Hex.upperDigit high, Hex.upperDigit low] := rfl
  rw [hdrop, hread, digitsValue?, Hex.digitValue?_upperDigit high hhigh]
  by_cases hhigh' : high < 10
  · by_cases hlow' : low < 10
    · have hless : high * 10 + low < limit := by omega
      simp [digitsValue?, Hex.digitValue?_upperDigit low hlow, hhigh', hlow', hless]
    · simp [digitsValue?, Hex.digitValue?_upperDigit low hlow, hhigh', hlow']
  · simp [hhigh']

end Number

theorem parseNumber_padded_two {n : Nat} (h : n < 256) : parseNumber (Hex.padded 2 n) =
    if n / 16 < 10 ∧ n % 16 < 10 then .ok (n / 16 * 10 + n % 16)
    else .error (.invalidAddress (.text (Hex.padded 2 n))) := by
  have hhigh : n / 16 < 16 := by omega
  have hlow : n % 16 < 16 := by omega
  have hlist := Hex.toList_padded_two h
  have hblank : ∀ c ∈ (Hex.padded 2 n).toList, isBlank c = false := by
    rw [hlist]
    simp [(Hex.upperDigit_ne _ hhigh).2.2.2, (Hex.upperDigit_ne _ hlow).2.2.2]
  rw [parseNumber_of_not_blank hblank, hlist, readPrefixed?_upperDigits hhigh hlow (by decide)]
  by_cases hdecimal : n / 16 < 10 ∧ n % 16 < 10
  · rw [if_pos hdecimal, if_pos hdecimal]
  · rw [if_neg hdecimal, if_neg hdecimal]

namespace Address

variable {a : Address} {s : UInt8}

/-- The sub-index that the digits of a sub-index stand for in base ten. -/
def misread? (s : UInt8) : Option UInt8 :=
  if s.toNat / 16 < 10 ∧ s.toNat % 16 < 10 then
    some (UInt8.ofNat (s.toNat / 16 * 10 + s.toNat % 16))
  else none

/-- Only a sub-index below ten is written in base sixteen as in base ten. -/
theorem misread?_eq_some_self_iff : misread? s = some s ↔ s.toNat < 10 := by
  have hlt : s.toNat < 256 := s.toNat_lt
  unfold misread?
  split
  · have hless : s.toNat / 16 * 10 + s.toNat % 16 < 256 := by omega
    rw [Option.some.injEq, ← UInt8.toNat_inj, UInt8.toNat_ofNat_of_lt' hless]
    omega
  · simp only [reduceCtorEq, false_iff]
    omega

/-- The index goes up to the colon. -/
theorem splitOnce_text (a : Address) : splitOnce ':' a.text.toList =
    some ((indexText a.index).toList, (Hex.padded 2 a.subIndex.toNat).toList) := by
  have hcolon : ':' ∉ (indexText a.index).toList := by
    rw [indexText, String.toList_append]
    intro hmem
    rcases List.mem_append.mp hmem with hmem | hmem
    · simp at hmem
    · obtain ⟨d, hd⟩ := exists_digitValue?_of_mem (digitsValue?_padded 4 a.index.toNat) ':' hmem
      have hnot : digitValue? 16 ':' = none := by decide
      rw [hnot] at hd
      cases hd
  have htext : a.text.toList =
      (indexText a.index).toList ++ ':' :: (Hex.padded 2 a.subIndex.toNat).toList := by
    simp [text]
  rw [htext, splitOnce_of_not_mem hcolon]

/-- What comes out of reading the text of an address. -/
theorem parse_text (a : Address) : parse a.text =
    match misread? a.subIndex with
    | some s => .ok ⟨a.index, s⟩
    | none => .error (.invalidAddress (.text (Hex.padded 2 a.subIndex.toNat))) := by
  have hindex : ¬0xFFFF < a.index.toNat := Nat.not_lt.mpr (Nat.le_of_lt_succ a.index.toNat_lt)
  have hsub : a.subIndex.toNat < 256 := a.subIndex.toNat_lt
  rw [parse, splitOnce_text]
  simp only [String.ofList_toList, parseNumber_indexText, if_neg hindex, UInt16.ofNat_toNat,
    parseNumber_padded_two hsub, misread?]
  by_cases hdecimal : a.subIndex.toNat / 16 < 10 ∧ a.subIndex.toNat % 16 < 10
  · have hless : ¬0xFF < a.subIndex.toNat / 16 * 10 + a.subIndex.toNat % 16 := by omega
    simp only [if_pos hdecimal, if_neg hless]
  · simp only [if_neg hdecimal]

/-- An address is read as it was written if and only if its sub-index is below ten. -/
theorem parse_text_eq_ok_iff : parse a.text = .ok a ↔ a.subIndex.toNat < 10 := by
  rw [parse_text, ← misread?_eq_some_self_iff]
  cases hread : misread? a.subIndex with
  | none => simp
  | some s =>
    obtain ⟨index, subIndex⟩ := a
    simp

end Address

namespace Catalog

variable {c : Catalog} {e : Entry}

/-- A text that is nobody's name stands for an address. -/
theorem resolve?_of_not_name {text : String} (h : ∀ x ∈ c.entries, x.name ≠ text) :
    c.resolve? text = (Address.parse text).toOption.bind c.get? := by
  rw [resolve?, find?_eq_none_iff.mpr h]
  cases Address.parse text <;> rfl

/-- The text of an address stands for the entry at the sub-index that is read in it. -/
theorem resolve?_text (h : ∀ x ∈ c.entries, x.name ≠ e.address.text) :
    c.resolve? e.address.text =
      (Address.misread? e.address.subIndex).bind fun s => c.get? ⟨e.address.index, s⟩ := by
  rw [resolve?_of_not_name h, Address.parse_text]
  cases Address.misread? e.address.subIndex <;> rfl

theorem resolve?_text_eq_some_iff (he : e ∈ c.entries)
    (h : ∀ x ∈ c.entries, x.name ≠ e.address.text) :
    c.resolve? e.address.text = some e ↔ e.address.subIndex.toNat < 10 := by
  rw [resolve?_text h, ← Address.misread?_eq_some_self_iff, Option.bind_eq_some_iff]
  constructor
  · rintro ⟨s, hread, hget⟩
    have haddress := (get?_eq_some_iff.mp hget).2
    rw [hread, haddress]
  · intro hread
    exact ⟨_, hread, get?_eq_some_iff.mpr ⟨he, rfl⟩⟩

/-- The text of an address is read as this address, and names the entry at it, if and only if the
sub-index is below ten. Otherwise it names what is at the sub-index that its digits stand for in base
ten, if they stand for one. -/
theorem shown_address_resolves_iff (a : Address) :
    (Address.parse a.text = .ok a ↔ a.subIndex.toNat < 10) ∧
    Address.parse a.text =
      (match Address.misread? a.subIndex with
      | some s => .ok ⟨a.index, s⟩
      | none => .error (.invalidAddress (.text (Hex.padded 2 a.subIndex.toNat)))) ∧
    ∀ (c : Catalog) (e : Entry), e ∈ c.entries → e.address = a →
      (∀ x ∈ c.entries, x.name ≠ a.text) →
      (c.resolve? a.text = some e ↔ a.subIndex.toNat < 10) ∧
        c.resolve? a.text = (Address.misread? a.subIndex).bind fun s => c.get? ⟨a.index, s⟩ := by
  refine ⟨Address.parse_text_eq_ok_iff, Address.parse_text a, ?_⟩
  rintro c e he rfl h
  exact ⟨resolve?_text_eq_some_iff he h, resolve?_text h⟩

/-- The last sub-index that is read as it is written, and one of which the digits cannot be read. -/
theorem shown_address_resolves_iff_lastDigit :
    let ninth : Entry := { address := ⟨0xFFFF, 9⟩, name := "ninth", type := .boolean }
    let last : Entry := { address := ⟨0xFFFF, 0xFF⟩, name := "last", type := .domain }
    let c : Catalog := .ofValid {} [ninth, last] (by decide +kernel)
    ninth.address.text = "0xFFFF:09" ∧ c.resolve? ninth.address.text = some ninth ∧
      last.address.text = "0xFFFF:FF" ∧ c.resolve? last.address.text = none := by
  intro ninth last c
  have hnames (a : Address) (ha : "ninth" ≠ a.text ∧ "last" ≠ a.text) :
      ∀ x ∈ c.entries, x.name ≠ a.text := by
    intro x hx
    rcases List.mem_pair.mp (mem_ofValid.mp hx) with rfl | rfl
    · exact ha.1
    · exact ha.2
  obtain ⟨-, -, hninths⟩ := shown_address_resolves_iff ninth.address
  obtain ⟨-, -, hlasts⟩ := shown_address_resolves_iff last.address
  have hninth := hninths c ninth (mem_ofValid.mpr (.head _)) rfl (hnames _ (by decide +kernel))
  have hlast := hlasts c last (mem_ofValid.mpr (.tail _ (.head _))) rfl (hnames _ (by decide +kernel))
  have hunread : Address.misread? 0xFF = none := by decide
  exact ⟨by decide +kernel, hninth.1.mpr (by decide), by decide +kernel,
    hlast.2.trans (congrArg (Option.bind · _) hunread)⟩

/-- The sixteenth sub-index is written as the tenth one is read. -/
theorem not_always_resolved :
    ¬(∀ a : Address, Address.parse a.text = .ok a) ∧
    ¬∀ (c : Catalog) (e : Entry), e ∈ c.entries → (∀ x ∈ c.entries, x.name ≠ e.address.text) →
      c.resolve? e.address.text = some e := by
  refine ⟨fun h => ?_, fun h => ?_⟩
  · have hsixteenth := Address.parse_text_eq_ok_iff.mp (h ⟨0x2000, 16⟩)
    exact absurd hsixteenth (by decide)
  · let tenth : Entry := { address := ⟨0x2000, 10⟩, name := "tenth", type := .boolean }
    let sixteenth : Entry := { address := ⟨0x2000, 16⟩, name := "sixteenth", type := .boolean }
    let c : Catalog := .ofValid {} [tenth, sixteenth] (by decide +kernel)
    have hmem : sixteenth ∈ c.entries := mem_ofValid.mpr (.tail _ (.head _))
    have hnames : ∀ x ∈ c.entries, x.name ≠ sixteenth.address.text := by
      intro x hx
      rcases List.mem_pair.mp (mem_ofValid.mp hx) with rfl | rfl <;> decide +kernel
    have hsixteenth := (resolve?_text_eq_some_iff hmem hnames).mp (h c sixteenth hmem hnames)
    exact absurd hsixteenth (by decide)

end Catalog

end Canopen
