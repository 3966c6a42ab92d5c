import Canopen.Definition
import Canopen.Proofs.Json.Compact
/-!
# Values without their kind

The JSON form of a value does not tell its kind, which is found again by trying one kind after the
other. Of values that are no floating-point numbers only a number without a sign comes back in another
kind, where one with a sign can hold it. To encoding this makes no difference
(`Value.restored_from_json`).
-/
namespace Canopen

open Number

namespace Json

/-- The kinds of values in the order in which they are tried. -/
def kinds : List Value.Kind := [.bool, .int, .uint, .float, .string, .bytes]

/-- A JSON value as a value of a kind. A whole number is a floating-point number as well. -/
def asKind? : Json → Value.Kind → Option Value
  | bool b, .bool => some (.bool b)
  | int v, .int => if -(2 ^ 63) ≤ v ∧ v < 2 ^ 63 then some (.int (Int64.ofInt v)) else none
  | int v, .uint => if 0 ≤ v ∧ v < 2 ^ 64 then some (.uint (UInt64.ofNat v.toNat)) else none
  | int v, .float =>
    let magnitude := Format.double.ofQuotient v.natAbs 1
    some (.float ⟨UInt64.ofNat (Format.double.withSign (v < 0) magnitude)⟩)
  | float x, .float => some (.float x)
  | str s, .string => some (.str s)
  | array items, .bytes => (bytes? items).map .bytes
  | _, _ => none

/-- Of a JSON value without whole numbers beyond 64 bits the first kind is read that it can have. -/
theorem toValue?_eq_findSome? {j : Json} (h : ∀ v, j = .int v → -(2 ^ 63) ≤ v ∧ v < 2 ^ 64) :
    j.toValue? = kinds.findSome? j.asKind? := by
  cases j with
  | int v =>
    obtain ⟨hlow, hhigh⟩ := h v rfl
    by_cases hsigned : v < 2 ^ 63
    · simp only [toValue?, kinds, asKind?, List.findSome?_cons]
      rw [if_pos hsigned, if_pos ⟨hlow, hsigned⟩]
    · have hnonneg : 0 ≤ v := by omega
      simp only [toValue?, kinds, asKind?, List.findSome?_cons]
      rw [if_neg hsigned, if_neg fun hrange => hsigned hrange.2, if_pos ⟨hnonneg, hhigh⟩]
  | array items =>
    simp only [toValue?, kinds, asKind?, List.findSome?_cons]
    cases bytes? items <;> rfl
  | _ => rfl

theorem bytes?_map (b : List UInt8) : bytes? (b.map fun x => .int x.toNat) = some b := by
  induction b with
  | nil => rfl
  | cons x b ih =>
    have hx : x.toNat < 256 := x.toNat_lt
    rw [bytes?] at ih
    rw [bytes?, List.map_cons, List.mapM_cons, ih]
    simp [natural?, Option.filter, hx]

end Json

namespace Value

variable {v : Value}

/-- The value that is found again where the kind is not told. -/
def reread : Value → Value
  | uint n => if n.toNat < 2 ^ 63 then int (Int64.ofInt n.toNat) else uint n
  | v => v

theorem toInt_ofInt_toNat {n : UInt64} (h : n.toNat < 2 ^ 63) : (Int64.ofInt n.toNat).toInt = n.toNat :=
  Int64.toInt_ofInt_of_le (by omega) (by omega)

theorem integer?_reread (v : Value) : v.reread.integer? = v.integer? := by
  cases v with
  | uint n =>
    rw [reread]
    split
    · exact congrArg some (toInt_ofInt_toNat ‹_›)
    · rfl
  | _ => rfl

/-- Numbers with and without a sign are encoded alike. -/
theorem encode_reread (t : DataType) (v : Value) (bytes : List UInt8) :
    t.encode v.reread = .ok bytes ↔ t.encode v = .ok bytes := by
  cases v with
  | uint n =>
    rw [reread]
    split
    · -- Where the number cannot be encoded, the two errors name different kinds.
      have hvalue := toInt_ofInt_toNat ‹_›
      cases t <;> simp [DataType.encode, integer?, hvalue]
    · rfl
  | _ => rfl

/-- The whole numbers of a value's JSON form have 64 bits. -/
theorem range_of_ofValue (v : Value) (n : Int) (h : Json.ofValue v = .int n) :
    -(2 ^ 63) ≤ n ∧ n < 2 ^ 64 := by
  cases v <;> cases h
  case int v => exact ⟨v.le_toInt, Int.lt_trans v.toInt_lt (by decide)⟩
  case uint v =>
    have hlt := v.toNat_lt
    omega

theorem toValue?_ofValue (h : v.kind ≠ .float) : (Json.ofValue v).toValue? = some v.reread := by
  cases v with
  | bool b => rfl
  | int v =>
    have hhigh : v.toInt < 2 ^ 63 := v.toInt_lt
    rw [Json.ofValue, Json.toValue?, if_pos hhigh, Int64.ofInt_toInt]
    rfl
  | uint n =>
    simp only [Json.ofValue, Json.toValue?, reread]
    by_cases hsmall : n.toNat < 2 ^ 63
    · rw [if_pos (by omega), if_pos hsmall]
    · rw [if_neg (by omega), if_neg hsmall, Int.toNat_natCast, UInt64.ofNat_toNat]
  | float x => contradiction
  | str s => rfl
  | bytes b => rw [Json.ofValue, Json.toValue?, Json.bytes?_map]; rfl

open Json.Source in
/-- The text of a value's JSON form is cut into parts that stand for this form. -/
theorem exists_tells_ofValue (h : v.kind ≠ .float) : ∃ s, Tells 1 s (Json.ofValue v) := by
  cases v with
  | bool b => exact ⟨_, tells_bool 1 b⟩
  | int v => exact ⟨_, tells_int 1 v.le_toInt (Int.lt_trans v.toInt_lt (by decide))⟩
  | uint n =>
    have hlt := n.toNat_lt
    exact ⟨_, tells_int 1 (by omega) (by omega)⟩
  | float x => contradiction
  | str s => exact ⟨_, tells_str 1 s⟩
  | bytes b =>
    refine exists_tells_array fun j hj => ?_
    obtain ⟨x, -, rfl⟩ := List.mem_map.mp hj
    have hx := x.toNat_lt
    exact ⟨_, tells_int 0 (by omega) (by omega)⟩

/-- A value that is no floating-point number is read again from the text of its JSON form, in the first
kind that fits: as itself, or with a sign where it had none and can have one. It is the same number then,
and every type encodes it if and only if it encodes the value, as the same bytes. -/
theorem restored_from_json (v : Value) (h : v.kind ≠ .float) :
    Json.parse? (Json.ofValue v).compact = some (Json.ofValue v) ∧
    (Json.ofValue v).toValue? = some v.reread ∧
    Json.kinds.findSome? (Json.ofValue v).asKind? = some v.reread ∧
    v.reread.integer? = v.integer? ∧
    ∀ (t : DataType) (bytes : List UInt8), t.encode v.reread = .ok bytes ↔ t.encode v = .ok bytes := by
  have hread := toValue?_ofValue h
  refine ⟨?_, hread, ?_, integer?_reread v, fun t bytes => encode_reread t v bytes⟩
  · obtain ⟨s, hs⟩ := exists_tells_ofValue h
    exact Json.parse?_compact hs (by decide)
  · rw [← Json.toValue?_eq_findSome? (range_of_ofValue v), hread]

theorem restored_from_json_bounds :
    (Json.ofValue (uint 0x7FFFFFFFFFFFFFFF)).toValue? = some (int 0x7FFFFFFFFFFFFFFF) ∧
    (Json.ofValue (uint 0x8000000000000000)).toValue? = some (uint 0x8000000000000000) ∧
    (Json.ofValue (int Int64.minValue)).toValue? = some (int Int64.minValue) ∧
    Json.parse? (Json.ofValue (int Int64.minValue)).compact = some (.int (-0x8000000000000000)) ∧
    Json.parse? (Json.ofValue (str "a\"\\\n\x01")).compact = some (.str "a\"\\\n\x01") ∧
    Json.parse? (Json.ofValue (bytes [0, 255])).compact = some (.array [.int 0, .int 255]) :=
  ⟨(restored_from_json (uint 0x7FFFFFFFFFFFFFFF) (by decide)).2.1.trans (by decide),
    (restored_from_json (uint 0x8000000000000000) (by decide)).2.1.trans (by decide),
    (restored_from_json (int Int64.minValue) (by decide)).2.1,
    (restored_from_json (int Int64.minValue) (by decide)).1,
    (restored_from_json (str "a\"\\\n\x01") (by decide)).1,
    (restored_from_json (bytes [0, 255]) (by decide)).1⟩

end Value

end Canopen
