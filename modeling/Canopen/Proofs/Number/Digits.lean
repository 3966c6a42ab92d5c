import Canopen.DictionaryError
import Canopen.Proofs.Text.Blank
/-!
# Digits

The digits that a number is written with are read as this number, in base ten (`readUnsigned?_toDigits`,
`parseNumber_toString`) and in base sixteen with zeros in front and large letters (`readUnsigned?_padded`).
In base ten none but zero itself begins with a zero (`exists_toDigits_eq_cons`).
-/
namespace Canopen

open Text

namespace Number

variable {base limit d n : Nat} {c : Char} {cs : List Char}

/-- Holds of a character and the number that it is a digit for, in whatever case. -/
structure IsDigit (base : Nat) (c : Char) (d : Nat) : Prop where
  lt_base : d < base
  eq_or_eq : c = d.digitChar ∨ c = d.digitChar.toUpper

/-- The digits from ten on are letters, large or small. -/
theorem isDigit_of_digitValue? (h : Hex.digitValue? c = some d) : IsDigit 16 c d := by
  have hsmall : ∀ d < 16, d.digitChar.toNat = if d < 10 then 48 + d else 87 + d := by decide
  have hlarge : ∀ d < 16, d.digitChar.toUpper.toNat = if d < 10 then 48 + d else 55 + d := by decide
  simp only [Hex.digitValue?] at h
  split at h
  · have hd := Option.some.inj h
    refine ⟨by omega, .inl (Char.toNat_inj.mp ?_)⟩
    rw [hsmall d (by omega), if_pos (by omega)]
    omega
  · split at h
    · have hd := Option.some.inj h
      refine ⟨by omega, .inl (Char.toNat_inj.mp ?_)⟩
      rw [hsmall d (by omega), if_neg (by omega)]
      omega
    · split at h
      · have hd := Option.some.inj h
        refine ⟨by omega, .inr (Char.toNat_inj.mp ?_)⟩
        rw [hlarge d (by omega), if_neg (by omega)]
        omega
      · contradiction

theorem digitsValue?_append (base n : Nat) (cs : List Char) (c : Char) :
    digitsValue? base n (cs ++ [c]) =
      (digitsValue? base n cs).bind fun m => (digitValue? base c).map fun d => m * base + d := by
  induction cs generalizing n with
  | nil => cases h : digitValue? base c <;> simp [digitsValue?, h]
  | cons c' cs ih =>
    cases h : digitValue? base c' with
    | some d => simp [digitsValue?, h, ih]
    | none => simp [digitsValue?, h]

/-- Zeros in front do not count. -/
theorem digitsValue?_replicate (hbase : 0 < base) (count : Nat) (cs : List Char) :
    digitsValue? base 0 (List.replicate count '0' ++ cs) = digitsValue? base 0 cs := by
  have hzero : digitValue? base '0' = some 0 := by
    have hdigit : Hex.digitValue? '0' = some 0 := rfl
    simp [digitValue?, hdigit, hbase]
  induction count with
  | zero => rfl
  | succ count ih => simp [List.replicate_succ, digitsValue?, hzero, ih]

/-- The digits of a number stand for it, in whatever shape each of them is written. -/
theorem digitsValue?_toDigits {shape : Char → Char} (hbase : 1 < base)
    (hshape : ∀ d < base, digitValue? base (shape d.digitChar) = some d) (n : Nat) :
    digitsValue? base 0 ((Nat.toDigits base n).map shape) = some n := by
  induction n using Nat.strongRecOn with
  | ind n ih =>
    rw [Nat.toDigits_eq_if hbase]
    split
    · rename_i hsmall
      simp [digitsValue?, hshape n hsmall]
    · rename_i hlarge
      have hless : n / base < n := Nat.div_lt_self (by omega) hbase
      have hlast : n % base < base := Nat.mod_lt n (by omega)
      rw [List.map_append, List.map_singleton, digitsValue?_append, ih _ hless, hshape _ hlast]
      simp [Nat.div_add_mod']

theorem exists_digitValue?_of_mem (h : digitsValue? base n cs = some limit) :
    ∀ c ∈ cs, ∃ d, digitValue? base c = some d := by
  induction cs generalizing n with
  | nil => simp
  | cons c cs ih =>
    rw [digitsValue?] at h
    split at h
    · rename_i d hd
      exact List.forall_mem_cons.mpr ⟨⟨d, hd⟩, ih h⟩
    · contradiction

/-- No digit is blank. -/
theorem isBlank_of_digitValue? (h : digitValue? base c = some d) : isBlank c = false := by
  have hblank : ∀ d < 16, isBlank d.digitChar = false ∧ isBlank d.digitChar.toUpper = false := by decide
  obtain ⟨hlt, hc⟩ := isDigit_of_digitValue? (Option.filter_eq_some_iff.mp h).1
  rcases hc with rfl | rfl
  · exact (hblank d hlt).1
  · exact (hblank d hlt).2

/-- In base ten the digits stand one after the other, zero at place 48. -/
theorem digit_of_digitValue? (h : digitValue? 10 c = some d) : c.isDigit = true ∧ c.toNat = 48 + d := by
  have hplace : ∀ d < 10, d.digitChar.toUpper = d.digitChar ∧ d.digitChar.isDigit = true ∧
      d.digitChar.toNat = 48 + d := by
    decide
  obtain ⟨hvalue, hsmall⟩ := Option.filter_eq_some_iff.mp h
  obtain ⟨hcase, hdigit⟩ := hplace d (of_decide_eq_true hsmall)
  rcases (isDigit_of_digitValue? hvalue).eq_or_eq with rfl | rfl
  · exact hdigit
  · rwa [hcase]

/-- More digits do not make a number smaller. -/
theorem le_of_digitsValue? {m : Nat} (hbase : 0 < base) (h : digitsValue? base m cs = some n) :
    m ≤ n := by
  induction cs generalizing m with
  | nil => exact Nat.le_of_eq (Option.some.inj h)
  | cons c cs ih =>
    rw [digitsValue?] at h
    split at h
    · have hle := ih h
      have hfactor : m ≤ m * base := Nat.le_mul_of_pos_right m hbase
      omega
    · contradiction

/-- No digit is taken for a plus sign. -/
theorem dropPlus_of_digitsValue? {m : Nat} (h : digitsValue? base m cs = some n) :
    dropPlus cs = cs := by
  cases cs with
  | nil => rfl
  | cons c rest =>
    obtain ⟨d, hd⟩ := exists_digitValue?_of_mem h c (.head rest)
    have hc : c ≠ '+' := by
      rintro rfl
      contradiction
    simp [dropPlus, hc]

/-- Digits are read as the number they stand for, if that is below the limit. -/
theorem readUnsigned?_of_digitsValue? (hne : cs ≠ []) (h : digitsValue? base 0 cs = some n)
    (hlimit : n < limit) : readUnsigned? base limit cs = some n := by
  have hread : readDigits? base cs = some n := readDigits?_eq_some_iff.mpr ⟨hne, h⟩
  rw [readUnsigned?, dropPlus_of_digitsValue? h, hread, Option.filter_some,
    if_pos (by simpa using hlimit)]

theorem digitsValue?_toDigits_ten (n : Nat) : digitsValue? 10 0 (Nat.toDigits 10 n) = some n := by
  have hshape : ∀ d < 10, digitValue? 10 (id d.digitChar) = some d := by decide
  have h := digitsValue?_toDigits (by decide) hshape n
  rwa [List.map_id] at h

theorem digitsValue?_padded (width n : Nat) :
    digitsValue? 16 0 (Hex.padded width n).toList = some n := by
  rw [Hex.padded, String.toList_ofList, digitsValue?_replicate (by decide)]
  exact digitsValue?_toDigits (by decide) (by decide) n

theorem head?_toDigits_ne_zero (hpos : 0 < n) : (Nat.toDigits 10 n).head? ≠ some '0' := by
  induction n using Nat.strongRecOn with
  | ind n ih =>
    rw [Nat.toDigits_eq_if (by decide)]
    split
    · have hdigit : ∀ d < 10, 0 < d → Nat.digitChar d ≠ '0' := by decide
      simpa using hdigit n (by assumption) hpos
    · rename_i hlarge
      have hfirst := ih (n / 10) (by omega) (by omega)
      rw [List.head?_append]
      cases h : (Nat.toDigits 10 (n / 10)).head? with
      | none => exact absurd (List.head?_eq_none_iff.mp h) Nat.toDigits_ne_nil
      | some c =>
        rw [h] at hfirst
        exact hfirst

/-- The digits of a number begin with none but a digit, and with a zero only if that is all. -/
theorem exists_toDigits_eq_cons (n : Nat) : ∃ c rest, Nat.toDigits 10 n = c :: rest ∧
    (∃ d, digitValue? 10 c = some d) ∧ (c = '0' → rest = []) := by
  obtain ⟨c, rest, h⟩ := List.exists_cons_of_ne_nil (Nat.toDigits_ne_nil (b := 10) (n := n))
  refine ⟨c, rest, h, exists_digitValue?_of_mem (digitsValue?_toDigits_ten n) c (by simp [h]), ?_⟩
  rintro rfl
  rcases Nat.eq_zero_or_pos n with rfl | hpos
  · cases h
    rfl
  · exact absurd (by rw [h]; rfl) (head?_toDigits_ne_zero hpos)

theorem readUnsigned?_toDigits (h : n < limit) :
    readUnsigned? 10 limit (Nat.toDigits 10 n) = some n :=
  readUnsigned?_of_digitsValue? Nat.toDigits_ne_nil (digitsValue?_toDigits_ten n) h

theorem readUnsigned?_padded (width : Nat) (h : n < limit) :
    readUnsigned? 16 limit (Hex.padded width n).toList = some n := by
  refine readUnsigned?_of_digitsValue? ?_ (digitsValue?_padded width n) h
  simp [Hex.padded, Nat.toDigits_ne_nil]

/-- Without 0x a number is read in base ten. -/
theorem readPrefixed?_of_not_mem (hx : 'x' ∉ cs) (hX : 'X' ∉ cs) :
    readPrefixed? limit cs = readUnsigned? 10 limit cs := by
  unfold readPrefixed?
  split
  · simp at hx
  · simp at hX
  · rfl

theorem toList_toString (n : Nat) : (toString n).toList = Nat.toDigits 10 n := by
  rw [Nat.toString_eq_repr, Nat.repr_eq_ofList_toDigits, String.toList_ofList]

theorem toList_toString_negSucc (n : Nat) :
    (toString (Int.negSucc n)).toList = '-' :: (toString (n + 1)).toList := by
  have happend : toString (Int.negSucc n) = "-" ++ toString (n + 1) := rfl
  rw [happend, String.toList_append]
  rfl

theorem exists_digitValue?_of_mem_toString {c : Char} (h : c ∈ (toString n).toList) :
    ∃ d, digitValue? 10 c = some d := by
  rw [toList_toString] at h
  exact exists_digitValue?_of_mem (digitsValue?_toDigits_ten n) c h

theorem isBlank_of_mem_toString {c : Char} (h : c ∈ (toString n).toList) : isBlank c = false := by
  obtain ⟨d, hd⟩ := exists_digitValue?_of_mem_toString h
  exact isBlank_of_digitValue? hd

theorem not_mem_toString {c : Char} (h : digitValue? 10 c = none) : c ∉ (toString n).toList := by
  intro hmem
  obtain ⟨d, hd⟩ := exists_digitValue?_of_mem_toString hmem
  rw [h] at hd
  contradiction

end Number

open Number

/-- A text without blanks is read as it stands. -/
theorem parseNumber_of_not_blank {s : String} (h : ∀ c ∈ s.toList, isBlank c = false) :
    parseNumber s = match readPrefixed? (2 ^ 64) s.toList with
      | some n => .ok n
      | none => .error (.invalidAddress (.text s)) := by
  have hread : readText? s = readPrefixed? (2 ^ 64) s.toList := by
    rw [readText?, trimChars_of_not_blank h]
  cases hcase : readPrefixed? (2 ^ 64) s.toList with
  | some n => simp only [parseNumber, hread, hcase]
  | none => simp only [parseNumber, hread, hcase, trim_of_not_blank h]

/-- The text of an index is read as this index. -/
theorem parseNumber_indexText (index : UInt16) :
    parseNumber (Address.indexText index) = .ok index.toNat := by
  have hlt : index.toNat < 2 ^ 64 := Nat.lt_trans index.toNat_lt (by decide)
  have hlist : (Address.indexText index).toList = '0' :: 'x' :: (Hex.padded 4 index.toNat).toList := by
    simp [Address.indexText]
  have hblank : ∀ c ∈ (Address.indexText index).toList, isBlank c = false := by
    rw [hlist]
    refine List.forall_mem_cons.mpr ⟨by decide, List.forall_mem_cons.mpr ⟨by decide, fun c hc => ?_⟩⟩
    obtain ⟨d, hd⟩ := exists_digitValue?_of_mem (digitsValue?_padded 4 index.toNat) c hc
    exact isBlank_of_digitValue? hd
  have hread : readPrefixed? (2 ^ 64) (Address.indexText index).toList = some index.toNat := by
    rw [hlist]
    exact readUnsigned?_padded 4 hlt
  rw [parseNumber_of_not_blank hblank, hread]

/-- The text of a number is read as this number. -/
theorem parseNumber_toString {n : Nat} (h : n < 2 ^ 64) : parseNumber (toString n) = .ok n := by
  have hblank : ∀ c ∈ (toString n).toList, isBlank c = false := fun c => isBlank_of_mem_toString
  have hread : readPrefixed? (2 ^ 64) (toString n).toList = some n := by
    rw [readPrefixed?_of_not_mem (not_mem_toString rfl) (not_mem_toString rfl), toList_toString,
      readUnsigned?_toDigits h]
  rw [parseNumber_of_not_blank hblank, hread]

end Canopen
