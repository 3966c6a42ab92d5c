import Canopen.ClientError
import Canopen.Entry
/-!
# What can be wrong with a value and with bytes

A value that has no encoding and an input that does not fit a bit field are found out without the
node, whose bytes are not needed for it; bytes that cannot be read are malformed, and nothing else is
(`DataType.isLocal_of_encode`, `Entry.isLocal_of_checkFieldInput`,
`Entry.exists_malformed_of_packField`).
-/
namespace Canopen

section Except

variable {ε α β : Type} {x : Except ε α} {f : α → Except ε β}

theorem bind_eq_ok_iff {b : β} : (x >>= f) = .ok b ↔ ∃ a, x = .ok a ∧ f a = .ok b := by
  cases x <;> simp [bind, Except.bind]

theorem bind_eq_error_iff {e : ε} :
    (x >>= f) = .error e ↔ x = .error e ∨ ∃ a, x = .ok a ∧ f a = .error e := by
  cases x <;> simp [bind, Except.bind]

theorem toOption_eq_some_iff {a : α} : x.toOption = some a ↔ x = .ok a := by
  cases x <;> simp [Except.toOption]

theorem map_eq_ok_iff {g : α → β} {b : β} : x.map g = .ok b ↔ ∃ a, x = .ok a ∧ g a = b := by
  cases x <;> simp [Except.map]

theorem map_eq_error_iff {g : α → β} {e : ε} : x.map g = .error e ↔ x = .error e := by
  cases x <;> simp [Except.map]

end Except

namespace DataType

variable {t : DataType} {e : DictionaryError}

theorem isLocal_of_encodeInteger {w : IntWidth} {range : Int × Int} {n : Int}
    (h : encodeInteger w range n = .error e) : (ClientError.dictionary e).isLocal := by
  unfold encodeInteger at h
  split at h <;> cases h
  rfl

theorem isLocal_of_encodePadded {length : Nat} {bytes : List UInt8}
    (h : encodePadded length bytes = .error e) : (ClientError.dictionary e).isLocal := by
  unfold encodePadded at h
  split at h <;> cases h
  rfl

theorem isLocal_of_encodeReal32 {x : Number.Binary64} (h : encodeReal32 x = .error e) :
    (ClientError.dictionary e).isLocal := by
  simp only [encodeReal32] at h
  split at h
  · cases h
    rfl
  · split at h <;> cases h
    rfl

/-- What is wrong with a value that cannot be encoded is seen without the node. -/
theorem isLocal_of_encode {v : Value} (h : t.encode v = .error e) :
    (ClientError.dictionary e).isLocal := by
  have hmismatch {k : Value.Kind} (h : DictionaryError.typeMismatch t k = e) :
      (ClientError.dictionary e).isLocal := by
    subst h
    rfl
  cases t with
  | signed | unsigned =>
    simp only [encode] at h
    split at h
    · exact isLocal_of_encodeInteger h
    · exact hmismatch (Except.error.inj h)
  | real32 =>
    simp only [encode] at h
    split at h
    · exact isLocal_of_encodeReal32 h
    · exact hmismatch (Except.error.inj h)
  | visibleString | octetString =>
    simp only [encode] at h
    split at h
    · exact isLocal_of_encodePadded h
    · exact hmismatch (Except.error.inj h)
  | boolean | real64 | domain =>
    simp only [encode] at h
    split at h
    · contradiction
    · exact hmismatch (Except.error.inj h)

/-- Bytes that cannot be decoded are malformed. -/
theorem exists_malformed_of_decode {data : List UInt8} (h : t.decode data = .error e) :
    ∃ reason, e = .malformed t reason := by
  have hbytes (h : t.decodeBytes data = .error e) : ∃ reason, e = .malformed t reason := by
    cases t with
    | visibleString length =>
      simp only [decodeBytes] at h
      split at h <;> cases h
      exact ⟨_, rfl⟩
    | _ => contradiction
  unfold decode at h
  split at h
  · split at h
    · exact hbytes h
    · cases h
      exact ⟨_, rfl⟩
  · exact hbytes h

theorem exists_malformed_of_rawBits {data : List UInt8} (h : t.rawBits data = .error e) :
    ∃ reason, e = .malformed t reason := by
  unfold rawBits at h
  split at h
  · cases h
    exact ⟨_, rfl⟩
  · split at h <;> cases h
    exact ⟨_, rfl⟩

theorem exists_malformed_of_ofRawBits {bits : BitVec 64} (h : t.ofRawBits bits = .error e) :
    ∃ reason, e = .malformed t reason := by
  unfold ofRawBits at h
  split at h <;> cases h
  exact ⟨_, rfl⟩

end DataType

namespace BitField

variable {f : BitField} {input : FieldInput} {e : DictionaryError}

theorem isLocal_of_packInput {raw : BitVec 64} (h : f.packInput raw input = .error e) :
    (ClientError.dictionary e).isLocal := by
  cases input with
  | raw value =>
    simp only [packInput, resolve, pack] at h
    split at h <;> cases h
    rfl
  | label l =>
    simp only [packInput, resolve] at h
    split at h
    · rename_i value _
      simp only [pack] at h
      split at h <;> cases h
      rfl
    · rename_i why hwhy
      cases h
      split at hwhy <;> cases hwhy
      rfl

end BitField

namespace Entry

variable {e : Entry} {name : String} {input : FieldInput} {data : List UInt8} {err : DictionaryError}

theorem isLocal_of_field (h : e.field name = .error err) : (ClientError.dictionary err).isLocal := by
  unfold field at h
  split at h <;> cases h
  rfl

theorem isLocal_of_checkFieldInput (h : e.checkFieldInput name input = .error err) :
    (ClientError.dictionary err).isLocal := by
  rcases bind_eq_error_iff.mp h with hf | ⟨f, -, h⟩
  · exact isLocal_of_field hf
  · rcases bind_eq_error_iff.mp h with hp | ⟨bits, -, h⟩
    · exact BitField.isLocal_of_packInput hp
    · contradiction

/-- An input that passes the check is one that a field of the entry takes. -/
theorem exists_of_checkFieldInput (h : e.checkFieldInput name input = .ok ()) :
    ∃ f bits, e.field name = .ok f ∧ f.packInput 0 input = .ok bits := by
  obtain ⟨f, hf, h⟩ := bind_eq_ok_iff.mp h
  obtain ⟨bits, hbits, -⟩ := bind_eq_ok_iff.mp h
  exact ⟨f, bits, hf, hbits⟩

theorem exists_malformed_of_extractField {f : BitField} (hf : e.field name = .ok f)
    (h : e.extractField name data = .error err) : ∃ reason, err = .malformed e.type reason := by
  rcases bind_eq_error_iff.mp h with hf' | ⟨f, -, h⟩
  · rw [hf] at hf'
    contradiction
  · rcases bind_eq_error_iff.mp h with hraw | ⟨raw, -, h⟩
    · exact DataType.exists_malformed_of_rawBits hraw
    · contradiction

/-- After the check only the bytes can be at fault. -/
theorem exists_malformed_of_packField (hcheck : e.checkFieldInput name input = .ok ())
    (h : e.packField name data input = .error err) : ∃ reason, err = .malformed e.type reason := by
  obtain ⟨f, bits, hf, hbits⟩ := exists_of_checkFieldInput hcheck
  rcases bind_eq_error_iff.mp h with hf' | ⟨f', hf', h⟩
  · rw [hf] at hf'
    contradiction
  · cases hf.symm.trans hf'
    rcases bind_eq_error_iff.mp h with hraw | ⟨raw, -, h⟩
    · exact DataType.exists_malformed_of_rawBits hraw
    · rcases bind_eq_error_iff.mp h with hp | ⟨packed, -, h⟩
      · rw [(BitField.packInput_eq_error_iff raw 0).mp hp] at hbits
        contradiction
      · exact DataType.exists_malformed_of_ofRawBits h

end Entry

end Canopen
