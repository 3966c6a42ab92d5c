import Canopen.Proofs.Number.Formats
import Mathlib.Tactic.NormNum
/-!
# Numbers of 32 bits among those of 64 bits

Every number of the 32-bit format is one of the 64-bit format, with room to spare for the significand and
for the exponent (`Format.exists_double_of_single`). So widening keeps what a pattern denotes
(`Binary64.same_widen`), and narrowing gives the pattern of a number that both formats hold
(`Binary64.narrow_of_same`). The numbers of 64 bits beyond the largest of 32 bits are found by their
patterns (`Binary64.exceedsSingle_iff`).
-/
namespace Canopen.Number

namespace Format

theorem place_single_le {m : Nat} (hm : m < single.infinity) : single.place m ≤ 253 := by
  have hinfinity : single.infinity = 2 ^ 23 * 255 := rfl
  have hfield : m / 2 ^ 23 < 255 := Nat.div_lt_of_lt_mul (hinfinity ▸ hm)
  change m / 2 ^ 23 - 1 ≤ 253
  omega

/-- The significand is moved to the left until it has all 53 bits. -/
theorem exists_double_of_single {m : Nat} (hm : m < single.infinity) :
    ∃ m' < double.infinity, double.value m' = single.value m := by
  by_cases hzero : single.significand m = 0
  · refine ⟨0, by decide, ?_⟩
    rw [value_eq_zero_iff.mpr rfl, value, hzero, Nat.cast_zero, zero_mul]
  · have hplace := place_single_le hm
    have hlow := Nat.log2_self_le hzero
    have hhigh : single.significand m < 2 ^ ((single.significand m).log2 + 1) := Nat.lt_log2_self
    have hbits : (single.significand m).log2 < 24 :=
      (Nat.log2_lt hzero).mpr (significand_lt single m)
    generalize (single.significand m).log2 = k at hlow hhigh hbits
    have hwide : 2 ^ k * 2 ^ (52 - k) = 2 ^ 52 := by
      rw [← Nat.pow_add, Nat.add_sub_cancel' (by omega)]
    have hmin : 2 ^ 52 ≤ single.significand m * 2 ^ (52 - k) := by
      rw [← hwide]
      exact Nat.mul_le_mul_right _ hlow
    have hmax : single.significand m * 2 ^ (52 - k) < 2 ^ 53 := by
      calc single.significand m * 2 ^ (52 - k) < 2 ^ (k + 1) * 2 ^ (52 - k) :=
            Nat.mul_lt_mul_of_pos_right hhigh (Nat.two_pow_pos _)
        _ = 2 ^ 53 := by rw [Nat.pow_succ, Nat.mul_right_comm, hwide]
    refine ⟨(single.place m + k + 873) * 2 ^ 52 + single.significand m * 2 ^ (52 - k), ?_, ?_⟩
    · have hinfinity : double.infinity = 2047 * 2 ^ 52 := rfl
      rw [hinfinity]
      omega
    · have hexponent : ((52 - k : Nat) : ℤ) + (double.minExponent + (single.place m + k + 873 : Nat)) =
          single.minExponent + single.place m := by
        rw [minExponent_single, minExponent_double]
        omega
      have hparts := @value_of_parts double (single.place m + k + 873) _ hmax fun _ => hmin
      refine hparts.trans ?_
      rw [value, ← hexponent, zpow_add₀ two_ne_zero ((52 - k : Nat) : ℤ), zpow_natCast, ← mul_assoc,
        Nat.cast_mul, Nat.cast_pow, Nat.cast_ofNat]

end Format

namespace Binary64

open Format

variable {x : Binary64} {s : UInt32}

theorem pattern_lt (x : Binary64) : x.pattern.toNat < 2 * double.signWeight := x.pattern.toNat_lt

theorem toNat_pattern_widen (s : UInt32) :
    (widen s).pattern.toNat = single.convert .double s.toNat :=
  UInt64.toNat_ofNat_of_lt' (convert_lt (by decide) single s.toNat)

theorem toNat_narrow (x : Binary64) : x.narrow.toNat = double.convert .single x.pattern.toNat :=
  UInt32.toNat_ofNat_of_lt' (convert_lt (by decide) double x.pattern.toNat)

theorem isFinite_iff : x.isFinite ↔ ∃ negative s e, x.denote = .finite negative s e := by
  rw [isFinite, decide_eq_true_eq, denote]
  rcases Nat.lt_trichotomy (double.magnitude x.pattern.toNat) double.infinity with hlt | heq | hgt
  · simp [denote_of_lt hlt, hlt]
  · simp [denote_of_eq heq, heq]
  · simp [denote_of_gt hgt, hgt.le]

/-- Widening keeps what a pattern denotes. -/
theorem same_widen (s : UInt32) : (single.denote s.toNat).Same (widen s).denote := by
  rw [denote, toNat_pattern_widen]
  rcases Nat.lt_trichotomy (single.magnitude s.toNat) single.infinity with hlt | heq | hgt
  · obtain ⟨m, hm, hvalue⟩ := exists_double_of_single hlt
    rw [convert_of_value hlt hm hvalue, denote_withSign hm, denote_of_lt hlt]
    exact ⟨rfl, hvalue.symm⟩
  · rw [convert_of_infinite heq, denote_withSign_infinity, denote_of_eq heq]
    exact rfl
  · obtain ⟨fraction, hpos, hfraction, hconvert⟩ :=
      @exists_convert_of_nan single double _ hgt (by decide)
    rw [hconvert, denote_withSign_nan hpos hfraction, denote_of_gt hgt]
    trivial

/-- There is no other pattern of 64 bits that denotes the same. -/
theorem widen_of_same (hx : x.denote ≠ .nan) (h : (single.denote s.toNat).Same x.denote) :
    widen s = x := by
  have hpattern : single.convert .double s.toNat = x.pattern.toNat :=
    convert_of_same x.pattern_lt hx h
  rw [widen, hpattern, UInt64.ofNat_toNat]

/-- A number that both formats hold is narrowed to its pattern of 32 bits. -/
theorem narrow_of_same (hs : single.denote s.toNat ≠ .nan)
    (h : (single.denote s.toNat).Same x.denote) : x.narrow = s := by
  have hpattern : double.convert .single x.pattern.toNat = s.toNat :=
    convert_of_same s.toNat_lt hs h.symm
  rw [narrow, hpattern, UInt32.ofNat_toNat]

theorem denote_narrow_of_nan (h : x.denote = .nan) : single.denote x.narrow.toNat = .nan := by
  obtain ⟨fraction, hpos, hfraction, hconvert⟩ :=
    @exists_convert_of_nan double single _ (denote_eq_nan_iff.mp h) (by decide)
  rw [toNat_narrow, hconvert, denote_withSign_nan hpos hfraction]

theorem denote_widen_eq_nan_iff : (widen s).denote = .nan ↔ single.denote s.toNat = .nan :=
  (same_widen s).eq_nan_iff.symm

/-- Holds of the numbers of which there is a pattern of 32 bits. -/
def IsSingle (x : Binary64) : Prop := ∃ s : UInt32, (single.denote s.toNat).Same x.denote

/-- Holds of the finite numbers beyond the largest of 32 bits. -/
def ExceedsSingle (x : Binary64) : Prop :=
  ∃ negative s e, x.denote = .finite negative s e ∧ (2 ^ 24 - 1) * 2 ^ 104 < (s : ℚ) * 2 ^ e

theorem value_largest : single.value single.largest = (2 ^ 24 - 1) * 2 ^ 104 := by
  have hsignificand : single.significand single.largest = 2 ^ 24 - 1 := by decide
  have hexponent : single.minExponent + single.place single.largest = 104 := by decide
  rw [value, hsignificand, hexponent]
  norm_num

/-- The largest number of 32 bits among the patterns of 64 bits. -/
theorem value_convert_largest :
    double.value (single.convert .double single.largest) = (2 ^ 24 - 1) * 2 ^ 104 := by
  have hlargest : single.magnitude single.largest < single.infinity := by decide
  obtain ⟨m, hm, hvalue⟩ := exists_double_of_single hlargest
  have hpositive : single.isNegative single.largest = false := by decide
  rw [convert_of_value hlargest hm hvalue, hpositive]
  exact hvalue.trans value_largest

/-- How the range is checked. -/
theorem exceedsSingle_iff : x.ExceedsSingle ↔ x.isFinite ∧
    single.convert .double single.largest < double.magnitude x.pattern.toNat := by
  constructor
  · rintro ⟨negative, s, e, hdenote, hlt⟩
    have hfinite : x.isFinite := isFinite_iff.mpr ⟨negative, s, e, hdenote⟩
    rw [denote, denote_of_lt (of_decide_eq_true hfinite)] at hdenote
    obtain ⟨-, rfl, rfl⟩ := Denotation.finite.inj hdenote
    rw [← value_convert_largest] at hlt
    exact ⟨hfinite, (value_strictMono double).lt_iff_lt.mp hlt⟩
  · rintro ⟨hfinite, hlt⟩
    refine ⟨_, _, _, denote_of_lt (of_decide_eq_true hfinite), ?_⟩
    rw [← value_convert_largest]
    exact value_strictMono double hlt

/-- None of the numbers of 32 bits is larger than the largest. -/
theorem not_exceedsSingle_of_isSingle (h : x.IsSingle) : ¬x.ExceedsSingle := by
  obtain ⟨s, hsame⟩ := h
  rw [exceedsSingle_iff]
  rintro ⟨hfinite, hlt⟩
  have hmagnitude : double.magnitude x.pattern.toNat < double.infinity := of_decide_eq_true hfinite
  rcases same_denote_iff.mp hsame with ⟨hs, -, -, hvalue⟩ | ⟨-, heq, -⟩ | ⟨-, hgt⟩
  · have hle : single.value (single.magnitude s.toNat) ≤ single.value single.largest :=
      (value_strictMono single).monotone (Nat.le_sub_one_of_lt hs)
    have hlarger := value_strictMono double hlt
    rw [value_convert_largest, ← value_largest, ← hvalue] at hlarger
    exact absurd hlarger (not_lt.mpr hle)
  · omega
  · omega

theorem isSingle_widen (s : UInt32) : (widen s).IsSingle := ⟨s, same_widen s⟩

/-- Infinities have patterns of 32 bits. -/
theorem isSingle_of_not_finite (hnan : x.denote ≠ .nan) (h : ¬x.isFinite) : x.IsSingle := by
  have heq : double.magnitude x.pattern.toNat = double.infinity := by
    rw [isFinite, decide_eq_true_eq, Nat.not_lt] at h
    exact Nat.le_antisymm (Nat.not_lt.mp fun hgt => hnan (denote_of_gt hgt)) h
  refine ⟨x.narrow, ?_⟩
  rw [toNat_narrow, convert_of_infinite heq, denote_withSign_infinity, denote, denote_of_eq heq]
  exact rfl

end Binary64

end Canopen.Number
