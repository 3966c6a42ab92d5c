import Canopen.Proofs.Number.Digits
/-!
# Names of data types

The name that a type is written with is read as this type, with the length of a string as long as the
length is below 2^64 (`DataType.ofText?_text`).
-/
namespace Canopen.DataType

open Canopen.Text Canopen.Number

/-- The name of a string type with its length in brackets is read part by part. -/
theorem ofText?_sized {name : List Char} {length : Nat} (hname : ∀ c ∈ name, isBlank c = false)
    (hmark : '[' ∉ name) (h : length < 2 ^ 64) :
    ofText? (String.ofList name ++ "[" ++ toString length ++ "]") =
      ofSizedName? length (String.ofList name) := by
  let digits := Nat.toDigits 10 length
  have hlist : (String.ofList name ++ "[" ++ toString length ++ "]").toList =
      name ++ '[' :: (digits ++ [']']) := by
    simp [digits, Nat.toString_eq_repr]
  have hdigits : ∀ c ∈ digits, isBlank c = false := fun c hc => by
    obtain ⟨d, hd⟩ := exists_digitValue?_of_mem (digitsValue?_toDigits_ten length) c hc
    exact isBlank_of_digitValue? hd
  have hblank : ∀ c ∈ name ++ '[' :: (digits ++ [']']), isBlank c = false := by
    intro c hc
    simp only [List.mem_append, List.mem_cons, List.not_mem_nil, or_false] at hc
    rcases hc with hc | rfl | hc | rfl
    · exact hname c hc
    · rfl
    · exact hdigits c hc
    · rfl
  have hlength : readLength? (digits ++ [']']) = some length := by
    rw [readLength?, dropLastChar?_append]
    dsimp only
    rw [trimChars_of_not_blank hdigits]
    exact readUnsigned?_toDigits h
  rw [ofText?, ofChars?, hlist, trimChars_of_not_blank hblank, splitOnce_of_not_mem hmark]
  dsimp only
  rw [hlength, trimChars_of_not_blank hname]

/-- A type is read from its name. -/
theorem ofText?_text (t : DataType) (h : ∀ size, t.byteSize? = some size → size < 2 ^ 64) :
    ofText? t.text = some t := by
  cases t with
  | visibleString length =>
    have hname : "visible_string" = String.ofList "visible_string".toList := by simp
    rw [text, kindName, hname,
      ofText?_sized (by simp [isBlank]) (by simp) (h length rfl)]
    rfl
  | octetString length =>
    have hname : "octet_string" = String.ofList "octet_string".toList := by simp
    rw [text, kindName, hname,
      ofText?_sized (by simp [isBlank]) (by simp) (h length rfl)]
    rfl
  | signed w => cases w <;> decide +kernel
  | unsigned w => cases w <;> decide +kernel
  | boolean | real32 | real64 | domain => decide +kernel

end Canopen.DataType
