import Canopen.Json.Source
import Canopen.Proofs.Json.Quoted
import Canopen.Proofs.Number.Digits
/-!
# JSON that is written and read

What is written of a truth value, a whole number of 64 bits, a text or an array of such is cut at the
right place, whatever follows it (`Json.Tells`). So values that are written without blanks are read back
from their text (`Json.parse?_compact`).
-/
namespace Canopen.Json

open Number Text

section Numerals

variable {cs rest : List Char} {n m : Nat}

/-- Holds of what cannot go on with a number that it follows. -/
def Follows (rest : List Char) : Prop :=
  ∀ c ∈ rest.head?, c.isDigit = false ∧ c ≠ '.' ∧ c ≠ 'e' ∧ c ≠ 'E'

/-- The digits of a number, the first one being the highest. -/
def digits (n : Nat) : List Nat := (Nat.toDigits 10 n).map fun c => c.toNat - 48

theorem takeDigits_toDigits (n : Nat) (h : Follows rest) :
    takeDigits (Nat.toDigits 10 n ++ rest) = (digits n, rest) := by
  have hdigits : ∀ c ∈ Nat.toDigits 10 n, c.isDigit = true := by
    intro c hc
    obtain ⟨d, hd⟩ := exists_digitValue?_of_mem (digitsValue?_toDigits_ten n) c hc
    exact (digit_of_digitValue? hd).1
  rw [takeDigits, List.takeWhile_append_of_pos hdigits, List.dropWhile_append_of_pos hdigits]
  cases rest with
  | nil => simp [digits]
  | cons c rest =>
    have hc := (h c rfl).1
    simp [digits, hc]

/-- Digits are all taken if the number they stand for can be held. -/
theorem takeSignificand_of_digitsValue? (h : digitsValue? 10 m cs = some n) (hn : n ≤ maxSignificand) :
    takeSignificand m (cs.map fun c => c.toNat - 48) = (n, []) := by
  induction cs generalizing m with
  | nil => exact congrArg (·, []) (Option.some.inj h)
  | cons c cs ih =>
    rw [digitsValue?] at h
    split at h
    · rename_i d hd
      have hle := le_of_digitsValue? (by decide) h
      have hc : c.toNat - 48 = d := by
        rw [(digit_of_digitValue? hd).2, Nat.add_sub_cancel_left]
      rw [List.map_cons, hc, takeSignificand, if_neg (by omega), ih h]
    · contradiction

theorem ofDigits_natural (h : n < 2 ^ 64) : ofDigits false (digits n) none none = some (.int n) := by
  have hmax : n ≤ maxSignificand := Nat.le_sub_one_of_lt h
  have htake : takeSignificand 0 (digits n) = (n, []) :=
    takeSignificand_of_digitsValue? (digitsValue?_toDigits_ten n) hmax
  simp [ofDigits, significand, htake, takeSignificand]

theorem ofDigits_negative (hpos : 0 < n) (h : n ≤ 2 ^ 63) :
    ofDigits true (digits n) none none = some (.int (-n)) := by
  have hmax : n ≤ maxSignificand := Nat.le_trans h (by decide)
  have htake : takeSignificand 0 (digits n) = (n, []) :=
    takeSignificand_of_digitsValue? (digitsValue?_toDigits_ten n) hmax
  simp [ofDigits, significand, htake, takeSignificand, hpos, h]

theorem readExponent_of_follows (h : Follows rest) : readExponent rest = some (none, rest) := by
  cases rest with
  | nil => rfl
  | cons c rest =>
    obtain ⟨-, -, hsmall, hlarge⟩ := h c rfl
    simp [readExponent, hsmall, hlarge]

/-- Only zero itself begins with a zero. -/
theorem digits_padded (n : Nat) : ((digits n).head? = some 0 && 1 < (digits n).length) = false := by
  obtain ⟨c, cs, hcs, ⟨d, hd⟩, hzero⟩ := exists_toDigits_eq_cons n
  have hnumber := (digit_of_digitValue? hd).2
  rw [digits, hcs, List.map_cons]
  by_cases hc : c = '0'
  · simp [hzero hc]
  · have hpos : c.toNat - 48 ≠ 0 := by
      intro hfirst
      have hsame : c.toNat = '0'.toNat := by
        have hchar : '0'.toNat = 48 := rfl
        omega
      exact hc (Char.toNat_inj.mp hsame)
    simp [hpos]

/-- Of a whole number its sign and its digits are taken. -/
theorem readNumeral_toDigits (negative : Bool) (n : Nat) (h : Follows rest) :
    readNumeral ((if negative then ['-'] else []) ++ (Nat.toDigits 10 n ++ rest)) =
      some (⟨negative, digits n, none, none⟩, rest) := by
  obtain ⟨c, cs, hcs, ⟨d, hd⟩, -⟩ := exists_toDigits_eq_cons n
  have hne : digits n ≠ [] := by simp [digits, hcs]
  have hminus : c ≠ '-' := by
    rintro rfl
    contradiction
  have htake := takeDigits_toDigits n h
  have hpadded := digits_padded n
  have hexponent := readExponent_of_follows h
  have hpoint : ∀ tail, rest ≠ '.' :: tail := by
    rintro tail rfl
    exact (h '.' rfl).2.1 rfl
  cases negative with
  | true => simp [readNumeral, htake, hpadded, hexponent]
  | false =>
    rw [hcs, List.cons_append] at htake ⊢
    simp [readNumeral, hminus, htake, hpadded, hexponent]

end Numerals

namespace Source

variable {s : Source} {j : Json} {items : List Json} {height fuel : Nat} {c : Char} {cs rest : List Char}

/-- Holds of the parts that the text of a value is cut into, whatever follows it. They stand for the
value, in which arrays lie within one another no deeper than given. -/
structure Tells (height : Nat) (s : Source) (j : Json) : Prop where
  starts : ∃ c cs, j.compact.toList = c :: cs ∧ isSpace c = false ∧ c ≠ ']'
  cut : ∀ fuel rest, 2 * j.compact.toList.length < fuel → Follows rest →
    readValue fuel (j.compact.toList ++ rest) = some (s, rest)
  meant : ∀ depth, height < depth → s.toJson? depth = some j

theorem skipSpace_cons (h : isSpace c = false) (rest : List Char) : skipSpace (c :: rest) = c :: rest := by
  simp [skipSpace, h]

/-- A value that does not begin as an array or an object has no parts. -/
theorem readValue_eq_readScalar (hspace : isSpace c = false) (harray : c ≠ '[') (hobject : c ≠ '\x7b') :
    readValue (fuel + 1) (c :: rest) = readScalar fuel (c :: rest) := by
  simp [readValue, skipSpace_cons hspace, harray, hobject]

theorem tells_bool (height : Nat) (b : Bool) : Tells height (.bool b) (.bool b) := by
  refine ⟨?_, fun fuel rest hfuel _ => ?_, fun _ _ => rfl⟩
  · cases b
    · exact ⟨'f', _, rfl, rfl, by decide⟩
    · exact ⟨'t', _, rfl, rfl, by decide⟩
  · obtain ⟨fuel, rfl⟩ := Nat.exists_eq_add_one.mpr (Nat.zero_lt_of_lt hfuel)
    cases b <;> rfl

theorem tells_str (height : Nat) (s : String) :
    Tells height (.text (String.ofList (s.toList.flatMap escape))) (.str s) := by
  have hlist : (Json.str s).compact.toList = '"' :: (s.toList.flatMap escape ++ ['"']) := by
    simp [compact, scalarText, quote]
  refine ⟨⟨_, _, hlist, rfl, by decide⟩, fun fuel rest hfuel _ => ?_, fun depth _ => ?_⟩
  · have hlength := length_le_length_escaped s.toList
    rw [hlist] at hfuel ⊢
    simp only [List.length_cons, List.length_append, List.length_nil] at hfuel
    obtain ⟨fuel, rfl⟩ := Nat.exists_eq_add_one.mpr (Nat.zero_lt_of_lt hfuel)
    have hroom : s.toList.length < fuel := by omega
    have hcut := cutText_escaped s.toList hroom [] rest
    rw [List.cons_append, List.append_assoc, List.singleton_append,
      readValue_eq_readScalar rfl (by decide) (by decide)]
    simp [readScalar, hcut]
  · rw [toJson?, textOf?_escaped]
    rfl

section Numbers

variable {v : Int}

theorem toList_compact_int (v : Int) :
    (Json.int v).compact.toList = (if v < 0 then ['-'] else []) ++ Nat.toDigits 10 v.natAbs := by
  have htext : (Json.int v).compact = toString v := by simp [compact, scalarText]
  rw [htext]
  cases v with
  | ofNat n => exact toList_toString n
  | negSucc n =>
    rw [toList_toString_negSucc, toList_toString, if_pos (Int.negSucc_lt_zero n)]
    rfl

/-- No text, truth value, array or object begins as a number does. -/
theorem number_starts (h : c = '-' ∨ c.isDigit = true) :
    isSpace c = false ∧ c ∉ ['"', 't', 'f', 'n', '[', ']', '\x7b'] := by
  rcases h with rfl | h
  · decide
  · have hne (x : Char) (hx : x.isDigit = false) : c ≠ x := by
      rintro rfl
      rw [hx] at h
      contradiction
    constructor
    · simp [isSpace, hne ' ' rfl, hne '\n' rfl, hne '\t' rfl, hne '\r' rfl]
    · simp [hne '"' rfl, hne 't' rfl, hne 'f' rfl, hne 'n' rfl, hne '[' rfl, hne ']' rfl, hne '\x7b' rfl]

theorem readValue_number (h : c = '-' ∨ c.isDigit = true) :
    readValue (fuel + 1) (c :: rest) = (readNumeral (c :: rest)).map fun (n, rest) => (.number n, rest) := by
  obtain ⟨hspace, hnot⟩ := number_starts h
  simp only [List.mem_cons, List.not_mem_nil, or_false, not_or] at hnot
  obtain ⟨hquote, htrue, hfalse, hnull, harray, -, hobject⟩ := hnot
  rw [readValue_eq_readScalar hspace harray hobject]
  simp [readScalar, hquote, htrue, hfalse, hnull]

theorem toJson?_whole (hlow : -(2 ^ 63) ≤ v) (hhigh : v < 2 ^ 64) :
    ofDigits (v < 0) (digits v.natAbs) none none = some (.int v) := by
  by_cases hneg : v < 0
  · rw [decide_eq_true hneg, ofDigits_negative (by omega) (by omega)]
    congr 2
    omega
  · rw [decide_eq_false hneg, ofDigits_natural (by omega)]
    congr 2
    omega

theorem tells_int (height : Nat) (hlow : -(2 ^ 63) ≤ v) (hhigh : v < 2 ^ 64) :
    Tells height (.number ⟨v < 0, digits v.natAbs, none, none⟩) (.int v) := by
  have hlist := toList_compact_int v
  obtain ⟨c, cs, hcs, hc⟩ : ∃ c cs, (Json.int v).compact.toList = c :: cs ∧
      (c = '-' ∨ c.isDigit = true) := by
    obtain ⟨c, cs, hcs, ⟨d, hd⟩, -⟩ := exists_toDigits_eq_cons v.natAbs
    rw [hlist]
    split
    · exact ⟨'-', _, rfl, .inl rfl⟩
    · exact ⟨c, cs, hcs, .inr (digit_of_digitValue? hd).1⟩
  obtain ⟨hspace, hnot⟩ := number_starts hc
  refine ⟨⟨c, cs, hcs, hspace, fun hbracket => hnot (by simp [hbracket])⟩, fun fuel rest hfuel hrest => ?_,
    fun depth _ => toJson?_whole hlow hhigh⟩
  obtain ⟨fuel, rfl⟩ := Nat.exists_eq_add_one.mpr (Nat.zero_lt_of_lt hfuel)
  have hread := readNumeral_toDigits (decide (v < 0)) v.natAbs hrest
  simp only [decide_eq_true_eq] at hread
  rw [← List.append_assoc, ← hlist, hcs, List.cons_append] at hread
  rw [hcs, List.cons_append, readValue_number hc, hread]
  rfl

end Numbers

section Arrays

theorem follows_comma (rest : List Char) : Follows (',' :: rest) := by
  rintro c hc
  cases hc
  decide

theorem follows_bracket (rest : List Char) : Follows (']' :: rest) := by
  rintro c hc
  cases hc
  decide

theorem toList_compactItems_cons (j k : Json) (items : List Json) :
    (compactItems (j :: k :: items)).toList =
      j.compact.toList ++ ',' :: (compactItems (k :: items)).toList := by
  simp [compactItems]

/-- Items are cut one after another up to the closing bracket. -/
theorem exists_tells_items (h : ∀ j ∈ items, ∃ s, Tells height s j) (hne : items ≠ []) :
    ∃ ss, (∀ fuel rest, 2 * (compactItems items).toList.length + 1 < fuel →
        readItems fuel ((compactItems items).toList ++ ']' :: rest) = some (ss, rest)) ∧
      ∀ depth, height < depth → jsonItems? depth ss = some items := by
  induction items with
  | nil => contradiction
  | cons j items ih =>
    obtain ⟨s, hs⟩ := h j (.head items)
    cases items with
    | nil =>
      refine ⟨[s], fun fuel rest hfuel => ?_, fun depth hdepth => ?_⟩
      · obtain ⟨fuel, rfl⟩ := Nat.exists_eq_add_one.mpr (Nat.zero_lt_of_lt hfuel)
        rw [compactItems] at hfuel ⊢
        rw [readItems, hs.cut fuel _ (by omega) (follows_bracket rest)]
        rfl
      · simp [jsonItems?, hs.meant depth hdepth]
    | cons k items =>
      obtain ⟨ss, hcut, hmeant⟩ := ih (fun j hj => h j (.tail _ hj)) (by simp)
      refine ⟨s :: ss, fun fuel rest hfuel => ?_, fun depth hdepth => ?_⟩
      · obtain ⟨fuel, rfl⟩ := Nat.exists_eq_add_one.mpr (Nat.zero_lt_of_lt hfuel)
        have hlist := toList_compactItems_cons j k items
        obtain ⟨c, cs, hcs, -⟩ := hs.starts
        have hpos : 0 < j.compact.toList.length := by simp [hcs]
        rw [hlist, List.length_append, List.length_cons] at hfuel
        rw [hlist, List.append_assoc, List.cons_append, readItems,
          hs.cut fuel _ (by omega) (follows_comma _)]
        have hrest := hcut fuel rest (by omega)
        simp [skipSpace, isSpace, hrest]
      · simp [jsonItems?, hs.meant depth hdepth, hmeant depth hdepth]

theorem readValue_array (hspace : isSpace c = false) (hbracket : c ≠ ']') :
    readValue (fuel + 1) ('[' :: c :: rest) =
      (readItems fuel (c :: rest)).map fun (items, rest) => (.array items, rest) := by
  have hself : skipSpace ('[' :: c :: rest) = '[' :: c :: rest := skipSpace_cons rfl _
  simp [readValue, hself, skipSpace_cons hspace, hbracket]

theorem exists_compactItems_eq (j : Json) (items : List Json) :
    ∃ tail, (compactItems (j :: items)).toList = j.compact.toList ++ tail := by
  cases items with
  | nil => exact ⟨[], by simp [compactItems]⟩
  | cons k items => exact ⟨_, toList_compactItems_cons j k items⟩

theorem exists_tells_array (h : ∀ j ∈ items, ∃ s, Tells height s j) :
    ∃ s, Tells (height + 1) s (.array items) := by
  have hlist : (Json.array items).compact.toList = '[' :: ((compactItems items).toList ++ [']']) := by
    simp [compact]
  have hstarts : ∃ c cs, (Json.array items).compact.toList = c :: cs ∧ isSpace c = false ∧ c ≠ ']' :=
    ⟨_, _, hlist, rfl, by decide⟩
  cases items with
  | nil =>
    refine ⟨.array [], hstarts, fun fuel rest hfuel _ => ?_, fun depth hdepth => ?_⟩
    · obtain ⟨fuel, rfl⟩ := Nat.exists_eq_add_one.mpr (Nat.zero_lt_of_lt hfuel)
      rw [hlist]
      rfl
    · rw [toJson?, if_neg (by omega)]
      rfl
  | cons j items =>
    obtain ⟨ss, hcut, hmeant⟩ := exists_tells_items h (by simp)
    refine ⟨.array ss, hstarts, fun fuel rest hfuel _ => ?_, fun depth hdepth => ?_⟩
    · obtain ⟨fuel, rfl⟩ := Nat.exists_eq_add_one.mpr (Nat.zero_lt_of_lt hfuel)
      obtain ⟨s, hs⟩ := h j (.head items)
      obtain ⟨c, cs, hcs, hspace, hbracket⟩ := hs.starts
      obtain ⟨tail, htail⟩ := exists_compactItems_eq j items
      rw [hlist, List.length_cons, List.length_append, List.length_singleton] at hfuel
      have hread := hcut fuel rest (by omega)
      rw [htail, hcs, List.cons_append, List.cons_append] at hread
      rw [hlist, htail, hcs, List.cons_append, List.append_assoc, List.singleton_append, List.cons_append,
        List.cons_append, readValue_array hspace hbracket, hread]
      rfl
    · rw [toJson?, if_neg (by omega), hmeant (depth - 1) (by omega)]
      rfl

end Arrays

end Source

/-- Parts that tell a value are those of its text. -/
theorem parse?_compact {s : Source} {j : Json} {height : Nat} (h : s.Tells height j)
    (hheight : height < 128) : parse? j.compact = some j := by
  have hcut := h.cut (2 * j.compact.toList.length + 2) [] (by omega) (by simp [Follows])
  rw [List.append_nil] at hcut
  have hsource : Source.parse? j.compact = some s := by
    simp [Source.parse?, hcut, skipSpace]
  rw [parse?, hsource, Option.bind_some, h.meant 128 hheight]

end Canopen.Json
