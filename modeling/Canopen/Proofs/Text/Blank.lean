import Canopen.Text.Blank
import Mathlib.Data.List.TakeWhile
/-!
# Blanks at both ends of a text

Trimming takes the blanks at both ends away and nothing else (`strips_trimChars`). So a text is left as it
was if and only if it neither begins nor ends with one (`Strips.eq_iff`).
-/
namespace Canopen.Text

variable {cs rest : List Char}

/-- Holds of characters of which neither the first nor the last is blank. -/
def Bare (cs : List Char) : Prop :=
  (∀ c ∈ cs.head?, isBlank c = false) ∧ ∀ c ∈ cs.getLast?, isBlank c = false

/-- Holds of characters and what is left of them without the blanks at both ends. -/
structure Strips (cs rest : List Char) : Prop where
  bare : Bare rest
  split : ∃ before after, cs = before ++ rest ++ after ∧
    (∀ c ∈ before, isBlank c = true) ∧ ∀ c ∈ after, isBlank c = true

theorem strips_trimChars (cs : List Char) : Strips cs (trimChars cs) := by
  let middle := cs.dropWhile isBlank
  let after := (middle.reverse.takeWhile isBlank).reverse
  have hmiddle : middle = trimChars cs ++ after := by
    rw [trimChars, ← List.reverse_append, List.takeWhile_append_dropWhile, List.reverse_reverse]
  refine ⟨⟨fun c hc => ?_, fun c hc => ?_⟩, cs.takeWhile isBlank, after, ?_, ?_, ?_⟩
  · -- the first character that is left is the first one of the middle part
    have hfirst : c ∈ middle.head? := by
      rw [hmiddle, List.head?_append, Option.mem_def.mp hc]
      rfl
    exact isBlank_of_mem_head?_dropWhile hfirst
  · rw [trimChars, List.getLast?_reverse] at hc
    exact isBlank_of_mem_head?_dropWhile hc
  · rw [List.append_assoc, ← hmiddle]
    exact List.takeWhile_append_dropWhile.symm
  · intro c hc
    exact List.mem_takeWhile_imp hc
  · intro c hc
    exact List.mem_takeWhile_imp (List.mem_reverse.mp hc)

/-- There is only one way to take the blanks at both ends away. -/
theorem Strips.trimChars_eq (h : Strips cs rest) : trimChars cs = rest := by
  obtain ⟨⟨hfirst, hlast⟩, before, after, rfl, hbefore, hafter⟩ := h
  rw [trimChars, List.append_assoc]
  cases rest with
  | nil =>
    have hall : ∀ c ∈ before ++ after, isBlank c = true := by
      intro c hc
      exact (List.mem_append.mp hc).elim (hbefore c) (hafter c)
    have hnone : (before ++ after ++ []).dropWhile isBlank = [] :=
      dropWhile_isBlank_append hall (by simp)
    rw [List.nil_append, ← List.append_nil (before ++ after), hnone]
    rfl
  | cons c rest =>
    -- from the end the blanks behind come first, and then the last character of the rest
    have hbehind : ∀ c ∈ after.reverse, isBlank c = true := by
      intro c hc
      exact hafter c (List.mem_reverse.mp hc)
    have hfront : (before ++ (c :: rest ++ after)).dropWhile isBlank = c :: rest ++ after :=
      dropWhile_isBlank_append hbefore hfirst
    rw [hfront, List.reverse_append,
      dropWhile_isBlank_append hbehind (by rwa [List.head?_reverse]), List.reverse_reverse]

/-- Nothing is taken away if and only if there are no blanks at the ends. -/
theorem Strips.eq_iff (h : Strips cs rest) : rest = cs ↔ Bare cs := by
  constructor
  · rintro rfl
    exact h.bare
  · intro hbare
    have hwhole : Strips cs cs := ⟨hbare, [], [], by simp, by simp, by simp⟩
    rw [← h.trimChars_eq, hwhole.trimChars_eq]

/-- A character that is not blank is left as often as it was there. -/
theorem Strips.count_eq {c : Char} (hc : isBlank c = false) (h : Strips cs rest) :
    rest.count c = cs.count c := by
  obtain ⟨-, before, after, rfl, hbefore, hafter⟩ := h
  have hnone : ∀ l : List Char, (∀ b ∈ l, isBlank b = true) → l.count c = 0 := by
    intro l hl
    refine List.count_eq_zero.mpr fun hmem => ?_
    rw [hl c hmem] at hc
    contradiction
  rw [List.count_append, List.count_append, hnone before hbefore, hnone after hafter]
  omega

theorem strips_trim (s : String) : Strips s.toList (trim s).toList := by
  rw [trim, String.toList_ofList]
  exact strips_trimChars s.toList

theorem trim_of_not_blank {s : String} (h : ∀ c ∈ s.toList, isBlank c = false) : trim s = s := by
  rw [trim, trimChars_of_not_blank h, String.ofList_toList]

end Canopen.Text
