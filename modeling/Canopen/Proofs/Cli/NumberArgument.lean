import Canopen.Cli.Argument
import Canopen.Proofs.Address.Grammar
/-!
# Numbers and addresses as arguments

Texts are read by one grammar of numbers, wherever a number is asked for: alone, as a part of an address,
and after a minus sign where the type of a value has signs. What is read is the number that is denoted, or
nothing if there is no room for it; none is taken for another (`Cli.read_iff_denoted`).
-/
namespace Canopen.Cli

open Number Text

/-- Holds of a text and the whole number that it denotes, with a minus sign in front or not. -/
inductive DenotesSigned : List Char → Int → Prop
  | plain {cs : List Char} {n : Nat} (h : Denotes cs n) : DenotesSigned cs n
  | minus {cs : List Char} {n : Nat} (h : Denotes cs n) : DenotesSigned ('-' :: cs) (-n)

variable {s : String} {v : Int64} {cs : List Char}

theorem denotesSigned_minus_iff {value : Int} :
    DenotesSigned ('-' :: cs) value ↔ ∃ n : Nat, Denotes cs n ∧ value = -n := by
  constructor
  · intro h
    cases h with
    | plain h => exact absurd List.mem_cons_self h.minus_not_mem
    | minus h => exact ⟨_, h, rfl⟩
  · rintro ⟨n, h, rfl⟩
    exact .minus h

theorem denotesSigned_plain_iff {value : Int} (hhead : cs.head? ≠ some '-') :
    DenotesSigned cs value ↔ ∃ n : Nat, Denotes cs n ∧ value = n := by
  constructor
  · intro h
    cases h with
    | plain h => exact ⟨_, h, rfl⟩
    | minus h => exact absurd rfl hhead
  · rintro ⟨n, h, rfl⟩
    exact .plain h

/-- A number that is read with a sign has to be one of 64 bits. -/
def ofInteger (s : String) (value : Int) : Except Failure Int64 :=
  if -(2 ^ 63) ≤ value ∧ value < 2 ^ 63 then .ok (Int64.ofInt value)
  else .error (.integerOutOfRange s)

theorem ofInteger_eq_ok_iff {value : Int} : ofInteger s value = .ok v ↔ value = v.toInt := by
  unfold ofInteger
  constructor
  · intro h
    split at h
    · rename_i hrange
      cases h
      exact (Int64.toInt_ofInt_of_le hrange.1 hrange.2).symm
    · contradiction
  · rintro rfl
    rw [if_pos ⟨v.le_toInt, v.toInt_lt⟩, Int64.ofInt_toInt]

/-- A minus sign is taken off before the number is read. -/
theorem readSigned_minus {digits : List Char} (hs : s.toList = '-' :: digits) : readSigned s =
    (within (.readingInteger s) (ofDictionary (parseNumber (String.ofList digits))) >>= fun n =>
      ofInteger s (-n)) := by
  simp only [readSigned, hs]
  rfl

theorem readSigned_plain (hs : s.toList.head? ≠ some '-') : readSigned s =
    (within (.readingInteger s) (ofDictionary (parseNumber s)) >>= fun n => ofInteger s n) := by
  unfold readSigned
  split
  rename_i negative digits hsign
  split at hsign
  · rename_i rest hlist
    simp [hlist] at hs
  · cases hsign
    rfl

/-- There is room in 64 bits for what stands behind the sign of a number of 64 bits. -/
theorem exists_magnitude_iff {signed : Nat → Int} (hroom : ∀ n, signed n = v.toInt → n < 2 ^ 64) :
    (∃ n, (Denotes cs n ∧ n < 2 ^ 64) ∧ signed n = v.toInt) ↔
      ∃ n, Denotes cs n ∧ v.toInt = signed n := by
  constructor
  · rintro ⟨n, ⟨h, -⟩, hv⟩
    exact ⟨n, h, hv.symm⟩
  · rintro ⟨n, h, hv⟩
    exact ⟨n, ⟨h, hroom n hv.symm⟩, hv.symm⟩

/-- A text is read as the whole number of 64 bits that it denotes. -/
theorem readSigned_eq_ok_iff : readSigned s = .ok v ↔ DenotesSigned s.toList v.toInt := by
  have hlow := v.le_toInt
  have hhigh := v.toInt_lt
  by_cases hminus : s.toList.head? = some '-'
  · obtain ⟨digits, hs⟩ := List.head?_eq_some_iff.mp hminus
    rw [readSigned_minus hs, bind_eq_ok_iff, hs, denotesSigned_minus_iff]
    simp only [within_eq_ok_iff, parseNumber_eq_ok_iff, String.toList_ofList, ofInteger_eq_ok_iff]
    exact exists_magnitude_iff fun n hv => by omega
  · rw [readSigned_plain hminus, bind_eq_ok_iff, denotesSigned_plain_iff hminus]
    simp only [within_eq_ok_iff, parseNumber_eq_ok_iff, ofInteger_eq_ok_iff]
    exact exists_magnitude_iff fun n hv => by omega

/-- Blanks do not count at the ends of the text, nor between the minus sign and the number. -/
theorem readValue_signed_eq_ok_iff {w : IntWidth} {x : Value} : readValue (.signed w) s = .ok x ↔
    ∃ (v : Int64) (cs : List Char), x = .int v ∧ Strips s.toList cs ∧ DenotesSigned cs v.toInt := by
  have hread : readValue (.signed w) s = (readSigned (trim s)).map .int := by simp only [readValue]
  rw [hread, map_eq_ok_iff]
  simp only [readSigned_eq_ok_iff]
  constructor
  · rintro ⟨v, h, rfl⟩
    exact ⟨v, _, rfl, strips_trim s, h⟩
  · rintro ⟨v, cs, rfl, hstrips, h⟩
    have htrim : (trim s).toList = cs := by rw [trim, String.toList_ofList, hstrips.trimChars_eq]
    rw [← htrim] at h
    exact ⟨v, h, rfl⟩

/-- A text is read as a number of 64 bits, as an address, and as a value of a type with signs if and only if
it denotes this number, this address, and the whole number of this value. It denotes one number at most, so
that from a number too large for its place no other number is made. -/
theorem read_iff_denoted :
    (∀ (cs : List Char) (m n : Nat), Denotes cs m → Denotes cs n → m = n) ∧
    (∀ (s : String) (n : Nat), parseNumber s = .ok n ↔ Denotes s.toList n ∧ n < 2 ^ 64) ∧
    (∀ (s : String) (a : Address), Address.parse s = .ok a ↔ Address.Denoted s.toList a) ∧
    ∀ (w : IntWidth) (s : String) (x : Value), readValue (.signed w) s = .ok x ↔
      ∃ (v : Int64) (cs : List Char), x = .int v ∧ Strips s.toList cs ∧ DenotesSigned cs v.toInt := by
  refine ⟨fun cs m n => Denotes.unique, fun s n => ?_, fun s a => ?_, fun w s x => ?_⟩
  · exact parseNumber_eq_ok_iff
  · exact Address.parse_eq_ok_iff
  · exact readValue_signed_eq_ok_iff

/-- The first number beyond 64 bits is not read as zero, nor as any other. -/
theorem read_iff_denoted_beyond :
    Denotes " 0x10000000000000000".toList (2 ^ 64) ∧
      ∀ n, parseNumber " 0x10000000000000000" ≠ .ok n := by
  obtain ⟨hunique, hnumber, -⟩ := read_iff_denoted
  have hread : readPrefixed? (2 ^ 64 + 1) (trimChars " 0x10000000000000000".toList) =
      some (2 ^ 64) := by
    decide +kernel
  have hbeyond : Denotes " 0x10000000000000000".toList (2 ^ 64) :=
    denotes_iff.mpr (readPrefixed?_eq_some_iff.mp hread).1
  refine ⟨hbeyond, fun n hn => ?_⟩
  obtain ⟨h, hlt⟩ := (hnumber _ n).mp hn
  have heq := hunique _ _ _ h hbeyond
  omega

/-- The least number of 64 bits, with a blank after its sign. -/
example : readValue (.signed .w64) " - 0X8000000000000000\n" = .ok (.int Int64.minValue) := by
  decide +kernel

end Canopen.Cli
