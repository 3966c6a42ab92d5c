import Canopen.Proofs.Number.Digits
import Mathlib.Data.Nat.Digits.Defs
import Mathlib.Tactic.Ring
/-!
# The grammar of numbers

A number is written with digits, most significant first, and at most one plus sign in front of them. In
base sixteen the mark 0x or 0X comes before both. Such a text denotes one number only, with blanks around
it or not (`Number.Denotes.unique`), and it is read as this number if the number is below 2^64
(`parseNumber_eq_ok_iff`).
-/
namespace Canopen

open Text

namespace Number

/-- Holds of one or more digits, most significant first, and the number they make up. -/
structure Digits (base : Nat) (cs : List Char) (n : Nat) : Prop where
  ne_nil : cs ≠ []
  exists_digits : ∃ ds, List.Forall₂ (IsDigit base) cs ds ∧ n = Nat.ofDigits base ds.reverse

/-- Holds of the digits of a number with at most one plus sign in front. -/
inductive Unsigned (base : Nat) : List Char → Nat → Prop
  | bare {cs : List Char} {n : Nat} (h : Digits base cs n) : Unsigned base cs n
  | plus {cs : List Char} {n : Nat} (h : Digits base cs n) : Unsigned base ('+' :: cs) n

/-- Holds of characters and the number written with them: in base sixteen after a mark, and in base ten
without. -/
inductive Prefixed : List Char → Nat → Prop
  | hex {mark : Char} {cs : List Char} {n : Nat} (hmark : mark = 'x' ∨ mark = 'X')
    (h : Unsigned 16 cs n) : Prefixed ('0' :: mark :: cs) n
  | decimal {cs : List Char} {n : Nat} (h : Unsigned 10 cs n) : Prefixed cs n

/-- Holds of characters and the number that is written with them but for the blanks at both ends. -/
def Denotes (cs : List Char) (n : Nat) : Prop := ∃ rest, Strips cs rest ∧ Prefixed rest n

variable {base limit d m n : Nat} {c : Char} {cs : List Char}

section Reading

theorem digitValue?_eq_some_iff (hbase : base ≤ 16) : digitValue? base c = some d ↔ IsDigit base c d := by
  have hvalue : ∀ d < 16, Hex.digitValue? d.digitChar = some d ∧
      Hex.digitValue? d.digitChar.toUpper = some d := by decide
  rw [digitValue?, Option.filter_eq_some_iff]
  constructor
  · rintro ⟨hc, hlt⟩
    exact ⟨of_decide_eq_true hlt, (isDigit_of_digitValue? hc).eq_or_eq⟩
  · rintro ⟨hlt, hc⟩
    obtain ⟨hlower, hupper⟩ := hvalue d (by omega)
    refine ⟨?_, decide_eq_true hlt⟩
    rcases hc with rfl | rfl
    · exact hlower
    · exact hupper

/-- What has been read stands before the digits that follow as one more digit would. -/
theorem ofDigits_reverse_step (base m d : Nat) (ds : List Nat) :
    Nat.ofDigits base ((m * base + d) :: ds).reverse = Nat.ofDigits base (m :: d :: ds).reverse := by
  simp only [Nat.ofDigits_reverse_cons, List.length_cons]
  ring

/-- Reading digit by digit leads to the number that all of them make up. -/
theorem digitsValue?_eq_some_iff (hbase : base ≤ 16) : digitsValue? base m cs = some n ↔
    ∃ ds, List.Forall₂ (IsDigit base) cs ds ∧ n = Nat.ofDigits base (m :: ds).reverse := by
  induction cs generalizing m with
  | nil =>
    rw [digitsValue?]
    constructor
    · rintro ⟨⟩
      exact ⟨[], .nil, (Nat.ofDigits_singleton).symm⟩
    · rintro ⟨ds, hds, rfl⟩
      cases hds
      exact congrArg some (Nat.ofDigits_singleton).symm
  | cons c cs ih =>
    rw [digitsValue?]
    constructor
    · intro h
      split at h
      · rename_i d hd
        obtain ⟨ds, hds, rfl⟩ := ih.mp h
        exact ⟨d :: ds, .cons ((digitValue?_eq_some_iff hbase).mp hd) hds, ofDigits_reverse_step base m d ds⟩
      · contradiction
    · rintro ⟨ds, hds, rfl⟩
      cases hds with
      | cons hd hds =>
        rw [(digitValue?_eq_some_iff hbase).mpr hd]
        exact ih.mpr ⟨_, hds, (ofDigits_reverse_step base m _ _).symm⟩

theorem digits_iff_digitsValue? (hbase : base ≤ 16) :
    Digits base cs n ↔ cs ≠ [] ∧ digitsValue? base 0 cs = some n := by
  rw [digitsValue?_eq_some_iff hbase]
  simp only [Nat.ofDigits_reverse_zero_cons]
  constructor
  · rintro ⟨hne, hdigits⟩
    exact ⟨hne, hdigits⟩
  · rintro ⟨hne, hdigits⟩
    exact ⟨hne, hdigits⟩

theorem readDigits?_dropPlus_eq_some_iff (hbase : base ≤ 16) :
    readDigits? base (dropPlus cs) = some n ↔ Unsigned base cs n := by
  rw [readDigits?_eq_some_iff, ← digits_iff_digitsValue? hbase]
  constructor
  · intro h
    unfold dropPlus at h
    split at h
    · exact .plus h
    · exact .bare h
  · intro h
    cases h with
    | plus h => exact h
    | bare h =>
      obtain ⟨-, hread⟩ := (digits_iff_digitsValue? hbase).mp h
      rwa [dropPlus_of_digitsValue? hread]

theorem readUnsigned?_eq_some_iff (hbase : base ≤ 16) :
    readUnsigned? base limit cs = some n ↔ Unsigned base cs n ∧ n < limit := by
  rw [readUnsigned?, Option.filter_eq_some_iff, readDigits?_dropPlus_eq_some_iff hbase, decide_eq_true_iff]

/-- What begins with a mark is not written in base ten. -/
theorem not_unsigned_of_mark {mark : Char} (hmark : mark = 'x' ∨ mark = 'X') :
    ¬Unsigned 10 ('0' :: mark :: cs) n := by
  intro h
  have hread := (readDigits?_dropPlus_eq_some_iff (by decide)).mpr h
  rcases hmark with rfl | rfl <;> contradiction

theorem readPrefixed?_eq_some_iff :
    readPrefixed? limit cs = some n ↔ Prefixed cs n ∧ n < limit := by
  constructor
  · intro h
    unfold readPrefixed? at h
    split at h
    · obtain ⟨h, hlimit⟩ := (readUnsigned?_eq_some_iff (by decide)).mp h
      exact ⟨.hex (.inl rfl) h, hlimit⟩
    · obtain ⟨h, hlimit⟩ := (readUnsigned?_eq_some_iff (by decide)).mp h
      exact ⟨.hex (.inr rfl) h, hlimit⟩
    · obtain ⟨h, hlimit⟩ := (readUnsigned?_eq_some_iff (by decide)).mp h
      exact ⟨.decimal h, hlimit⟩
  · rintro ⟨h, hlimit⟩
    cases h with
    | hex hmark h =>
      have hread := (readUnsigned?_eq_some_iff (by decide)).mpr ⟨h, hlimit⟩
      rcases hmark with rfl | rfl <;> exact hread
    | decimal h =>
      unfold readPrefixed?
      split
      · exact absurd h (not_unsigned_of_mark (.inl rfl))
      · exact absurd h (not_unsigned_of_mark (.inr rfl))
      · exact (readUnsigned?_eq_some_iff (by decide)).mpr ⟨h, hlimit⟩

theorem denotes_iff : Denotes cs n ↔ Prefixed (trimChars cs) n := by
  constructor
  · rintro ⟨rest, hstrips, h⟩
    rwa [hstrips.trimChars_eq]
  · intro h
    exact ⟨_, strips_trimChars cs, h⟩

/-- A text denotes one number at most. -/
theorem Denotes.unique (hm : Denotes cs m) (hn : Denotes cs n) : m = n := by
  -- no limit is in the way of reading both
  have hreadM : readPrefixed? (max m n + 1) (trimChars cs) = some m :=
    readPrefixed?_eq_some_iff.mpr ⟨denotes_iff.mp hm, by omega⟩
  have hreadN : readPrefixed? (max m n + 1) (trimChars cs) = some n :=
    readPrefixed?_eq_some_iff.mpr ⟨denotes_iff.mp hn, by omega⟩
  exact Option.some.inj (hreadM.symm.trans hreadN)

end Reading

section Characters

/-- But for the plus sign a number is written with digits. -/
theorem Unsigned.not_mem (hbase : base ≤ 16) (hplus : c ≠ '+') (hc : digitValue? base c = none)
    (h : Unsigned base cs n) : c ∉ cs := by
  have hdigits : ∀ cs, Digits base cs n → c ∉ cs := by
    intro cs h hmem
    obtain ⟨-, hread⟩ := (digits_iff_digitsValue? hbase).mp h
    obtain ⟨d, hd⟩ := exists_digitValue?_of_mem hread c hmem
    rw [hc] at hd
    contradiction
  cases h with
  | bare h => exact hdigits _ h
  | plus h => simp [hplus, hdigits _ h]

/-- No minus sign is part of a number that has none in front. -/
theorem Prefixed.minus_not_mem (h : Prefixed cs n) : '-' ∉ cs := by
  cases h with
  | hex hmark h =>
    have hrest : '-' ∉ _ := h.not_mem (by decide) (by decide) rfl
    rcases hmark with rfl | rfl <;> simpa using hrest
  | decimal h => exact h.not_mem (by decide) (by decide) rfl

theorem Denotes.minus_not_mem (h : Denotes cs n) : '-' ∉ cs := by
  obtain ⟨rest, hstrips, h⟩ := h
  rw [← List.count_eq_zero, ← hstrips.count_eq rfl, List.count_eq_zero]
  exact h.minus_not_mem

end Characters

end Number

open Number

/-- A text is read as the number that it denotes, if this is below 2^64. -/
theorem parseNumber_eq_ok_iff {s : String} {n : Nat} :
    parseNumber s = .ok n ↔ Denotes s.toList n ∧ n < 2 ^ 64 := by
  rw [denotes_iff, ← readPrefixed?_eq_some_iff, ← readText?, parseNumber]
  cases readText? s <;> simp

end Canopen
