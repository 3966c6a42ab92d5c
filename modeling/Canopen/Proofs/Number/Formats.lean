import Canopen.Number.Binary
import Mathlib.Data.Int.Log
import Mathlib.Data.Rat.Floor
import Mathlib.Tactic.FieldSimp
import Mathlib.Tactic.GCongr
import Mathlib.Tactic.Positivity
import Mathlib.Tactic.Ring
/-!
# What the patterns of a format denote

A pattern without a sign counts the finite numbers below it, so the numbers rise with the patterns
(`Format.value_strictMono`). The pattern nearest to a number that the format holds is the pattern of this
number (`Format.ofQuotient_of_value`).
-/
namespace Canopen.Number

/-- A power of two as a quotient of whole numbers. -/
theorem two_zpow_eq (e : ℤ) : (2 : ℚ) ^ e = 2 ^ e.toNat / 2 ^ (-e).toNat := by
  rcases Int.le_total 0 e with h | h
  · obtain ⟨n, rfl⟩ := Int.eq_ofNat_of_zero_le h
    simp
  · obtain ⟨n, hn⟩ := Int.eq_ofNat_of_zero_le (Int.neg_nonneg_of_nonpos h)
    obtain rfl : e = -(n : ℤ) := by omega
    simp [zpow_neg]

/-- How a quotient compares with a power of two, in whole numbers. -/
theorem two_zpow_le_quotient_iff {n d : Nat} (hd : 0 < d) (e : ℤ) :
    (2 : ℚ) ^ e ≤ n / d ↔ d * 2 ^ e.toNat ≤ n * 2 ^ (-e).toNat := by
  have hd' : (0 : ℚ) < d := by exact_mod_cast hd
  rw [two_zpow_eq, div_le_div_iff₀ (by positivity) hd', mul_comm]
  exact_mod_cast Iff.rfl

theorem log_lt_iff {q : ℚ} (hq : 0 < q) (k : ℤ) : Int.log 2 q < k ↔ q < 2 ^ k :=
  (Int.lt_zpow_iff_log_lt (by decide) hq).symm

theorem le_log_iff {q : ℚ} (hq : 0 < q) (k : ℤ) : k ≤ Int.log 2 q ↔ 2 ^ k ≤ q :=
  (Int.zpow_le_iff_le_log (by decide) hq).symm

/-- A logarithm lies between the two powers that enclose the number. -/
theorem log_eq_of_zpow {q : ℚ} {k : ℤ} (hlow : (2 : ℚ) ^ k ≤ q) (hhigh : q < 2 ^ (k + 1)) :
    Int.log 2 q = k := by
  have hq : 0 < q := (zpow_pos two_pos k).trans_le hlow
  have hge := (le_log_iff hq k).mpr hlow
  have hlt := (log_lt_iff hq (k + 1)).mpr hhigh
  omega

/-- The binary order of a quotient is its logarithm, rounded down. -/
theorem binaryOrder_eq {n d : Nat} (hn : 0 < n) (hd : 0 < d) :
    binaryOrder n d = Int.log 2 ((n : ℚ) / d) := by
  have hn' : (0 : ℚ) < n := by exact_mod_cast hn
  have hd' : (0 : ℚ) < d := by exact_mod_cast hd
  have hnlow : (2 : ℚ) ^ n.log2 ≤ n := by exact_mod_cast Nat.log2_self_le hn.ne'
  have hnhigh : (n : ℚ) < 2 ^ (n.log2 + 1) := by exact_mod_cast Nat.lt_log2_self
  have hdlow : (2 : ℚ) ^ d.log2 ≤ d := by exact_mod_cast Nat.log2_self_le hd.ne'
  have hdhigh : (d : ℚ) < 2 ^ (d.log2 + 1) := by exact_mod_cast Nat.lt_log2_self
  -- The logarithms of both parts leave two neighbours, between which the comparison decides.
  have habove : (n : ℚ) / d < 2 ^ ((n.log2 : ℤ) - d.log2 + 1) := by
    calc (n : ℚ) / d < 2 ^ (n.log2 + 1) / d := by gcongr
      _ ≤ 2 ^ (n.log2 + 1) / 2 ^ d.log2 := by gcongr
      _ = 2 ^ ((n.log2 : ℤ) - d.log2 + 1) := by
        rw [sub_add_eq_add_sub, zpow_sub₀ two_ne_zero, ← Nat.cast_add_one, zpow_natCast, zpow_natCast]
  have hbelow : (2 : ℚ) ^ ((n.log2 : ℤ) - d.log2 - 1) ≤ n / d := by
    calc (2 : ℚ) ^ ((n.log2 : ℤ) - d.log2 - 1) = 2 ^ n.log2 / 2 ^ (d.log2 + 1) := by
          rw [sub_sub, zpow_sub₀ two_ne_zero, ← Nat.cast_add_one, zpow_natCast, zpow_natCast]
      _ ≤ n / 2 ^ (d.log2 + 1) := by gcongr
      _ ≤ n / d := by gcongr
  unfold binaryOrder
  dsimp only
  split <;> rename_i hle <;> rw [← two_zpow_le_quotient_iff hd] at hle
  · exact (log_eq_of_zpow hle habove).symm
  · exact (log_eq_of_zpow hbelow (by simpa using hle)).symm

/-- A quotient without a rest is not rounded. -/
theorem divideHalfEven_mul {d : Nat} (hd : 0 < d) (q : Nat) : divideHalfEven (q * d) d = q := by
  simp [divideHalfEven, hd]

/-- Holds of one number that is denoted twice, maybe in different formats. Zeros have signs. -/
def Denotation.Same : Denotation → Denotation → Prop
  | .nan, .nan => True
  | .infinite negative, .infinite negative' => negative = negative'
  | .finite negative s e, .finite negative' s' e' =>
    negative = negative' ∧ (s : ℚ) * 2 ^ e = s' * 2 ^ e'
  | _, _ => False

theorem Denotation.Same.symm {a b : Denotation} (h : a.Same b) : b.Same a := by
  cases a <;> cases b <;> simp_all [Same]

theorem Denotation.Same.eq_nan_iff {a b : Denotation} (h : a.Same b) : a = .nan ↔ b = .nan := by
  cases a <;> cases b <;> simp_all [Same]

namespace Format

variable {f : Format} {m : Nat}

/-- How many binades lie below that of a magnitude. The numbers of the first exponent field have the
places of those below normal numbers. -/
def place (f : Format) (m : Nat) : Nat := m / 2 ^ f.fractionBits - 1

/-- The significand of a magnitude, in units of its last place. -/
def significand (f : Format) (m : Nat) : Nat := m - f.place m * 2 ^ f.fractionBits

def value (f : Format) (m : Nat) : ℚ := f.significand m * 2 ^ (f.minExponent + f.place m)

theorem place_add_significand (f : Format) (m : Nat) :
    f.place m * 2 ^ f.fractionBits + f.significand m = m := by
  have hle : f.place m * 2 ^ f.fractionBits ≤ m :=
    (Nat.mul_le_mul_right _ (Nat.sub_le ..)).trans (Nat.div_mul_le_self ..)
  exact Nat.add_sub_cancel' hle

theorem place_of_lt (h : m < 2 ^ f.fractionBits) : f.place m = 0 := by
  rw [place, Nat.div_eq_of_lt h]

theorem significand_of_lt (h : m < 2 ^ f.fractionBits) : f.significand m = m := by
  rw [significand, place_of_lt h, Nat.zero_mul, Nat.sub_zero]

theorem significand_of_le (h : 2 ^ f.fractionBits ≤ m) :
    f.significand m = 2 ^ f.fractionBits + m % 2 ^ f.fractionBits := by
  have hfield : 0 < m / 2 ^ f.fractionBits := Nat.div_pos h (Nat.two_pow_pos _)
  have hparts := Nat.div_add_mod' m (2 ^ f.fractionBits)
  rw [significand, place, Nat.sub_mul, Nat.one_mul]
  have hmul : 2 ^ f.fractionBits ≤ m / 2 ^ f.fractionBits * 2 ^ f.fractionBits :=
    Nat.le_mul_of_pos_left _ hfield
  omega

theorem significand_lt (f : Format) (m : Nat) : f.significand m < 2 ^ (f.fractionBits + 1) := by
  have hdouble := Nat.pow_succ 2 f.fractionBits
  rcases Nat.lt_or_ge m (2 ^ f.fractionBits) with h | h
  · rw [significand_of_lt h]
    omega
  · have hmod := Nat.mod_lt m (Nat.two_pow_pos f.fractionBits)
    rw [significand_of_le h]
    omega

theorem le_significand (h : f.place m ≠ 0) : 2 ^ f.fractionBits ≤ f.significand m := by
  rcases Nat.lt_or_ge m (2 ^ f.fractionBits) with hlt | hle
  · exact absurd (place_of_lt hlt) h
  · rw [significand_of_le hle]
    exact Nat.le_add_right ..

/-- Magnitudes are put together from places and significands. -/
theorem place_of_parts {p s : Nat} (hs : s < 2 ^ (f.fractionBits + 1))
    (hp : p ≠ 0 → 2 ^ f.fractionBits ≤ s) : f.place (p * 2 ^ f.fractionBits + s) = p := by
  have hdouble := Nat.pow_succ 2 f.fractionBits
  rw [place, Nat.add_comm, Nat.add_mul_div_right _ _ (Nat.two_pow_pos _)]
  rcases Nat.lt_or_ge s (2 ^ f.fractionBits) with hlt | hle
  · have hzero : p = 0 := by_contra fun hne => Nat.not_le.mpr hlt (hp hne)
    rw [Nat.div_eq_of_lt hlt, hzero]
  · have hone : s / 2 ^ f.fractionBits = 1 := Nat.div_eq_of_lt_le (by omega) (by omega)
    omega

theorem significand_of_parts {p s : Nat} (hs : s < 2 ^ (f.fractionBits + 1))
    (hp : p ≠ 0 → 2 ^ f.fractionBits ≤ s) :
    f.significand (p * 2 ^ f.fractionBits + s) = s := by
  rw [significand, place_of_parts hs hp, Nat.add_sub_cancel_left]

theorem value_of_parts {p s : Nat} (hs : s < 2 ^ (f.fractionBits + 1))
    (hp : p ≠ 0 → 2 ^ f.fractionBits ≤ s) :
    f.value (p * 2 ^ f.fractionBits + s) = s * 2 ^ (f.minExponent + p) := by
  rw [value, significand_of_parts hs hp, place_of_parts hs hp]

/-- What a finite pattern denotes, by its place and its significand. -/
theorem denote_of_lt {pattern : Nat} (h : f.magnitude pattern < f.infinity) :
    f.denote pattern = .finite (f.isNegative pattern) (f.significand (f.magnitude pattern))
      (f.minExponent + f.place (f.magnitude pattern)) := by
  unfold denote
  dsimp only
  generalize f.magnitude pattern = m at h
  rw [if_neg h.ne, if_neg h.not_gt]
  split
  · rename_i hfield
    have hlt : m < 2 ^ f.fractionBits := by simpa [Nat.div_eq_zero_iff] using hfield
    rw [significand_of_lt hlt, place_of_lt hlt, Nat.mod_eq_of_lt hlt]
    simp
  · rename_i hfield
    have hle : 2 ^ f.fractionBits ≤ m := by simpa [Nat.div_eq_zero_iff] using hfield
    rw [significand_of_le hle, place, Nat.cast_sub (Nat.one_le_iff_ne_zero.mpr hfield)]
    simp [Int.add_sub_assoc]

/-- The number with a magnitude, in units of the last place of the smallest numbers. -/
def units (f : Format) (m : Nat) : Nat := f.significand m * 2 ^ f.place m

theorem value_eq_units (f : Format) (m : Nat) : f.value m = f.units m * 2 ^ f.minExponent := by
  rw [value, units, zpow_add₀ two_ne_zero, zpow_natCast]
  push_cast
  ring

/-- Numbers rise with their magnitudes, also from one binade to the next. -/
theorem units_lt_succ (f : Format) (m : Nat) : f.units m < f.units (m + 1) := by
  have hplace : f.place (m + 1) = f.place m ∨ f.place (m + 1) = f.place m + 1 := by
    simp only [place, Nat.succ_div]
    split <;> omega
  have hparts := f.place_add_significand m
  have hnext := f.place_add_significand (m + 1)
  rw [units, units]
  rcases hplace with hsame | hcarry
  · have hsucc : f.significand (m + 1) = f.significand m + 1 := by
      rw [hsame] at hnext
      omega
    rw [hsame, hsucc]
    exact Nat.mul_lt_mul_of_pos_right (Nat.lt_succ_self _) (Nat.two_pow_pos _)
  · have hlt := f.significand_lt m
    have hle : 2 ^ f.fractionBits ≤ f.significand (m + 1) := le_significand (by omega)
    calc f.significand m * 2 ^ f.place m
        < 2 ^ (f.fractionBits + 1) * 2 ^ f.place m :=
          Nat.mul_lt_mul_of_pos_right hlt (Nat.two_pow_pos _)
      _ = 2 ^ f.fractionBits * 2 ^ (f.place m + 1) := by ring
      _ ≤ f.significand (m + 1) * 2 ^ f.place (m + 1) := by
        rw [hcarry]
        exact Nat.mul_le_mul_right _ hle

theorem value_strictMono (f : Format) : StrictMono f.value := by
  have hunits : StrictMono f.units := strictMono_nat_of_lt_succ f.units_lt_succ
  intro m m' h
  have hlt : (f.units m : ℚ) < f.units m' := by exact_mod_cast hunits h
  rw [value_eq_units, value_eq_units]
  exact mul_lt_mul_of_pos_right hlt (zpow_pos two_pos _)

theorem value_eq_zero_iff : f.value m = 0 ↔ m = 0 := by
  have hzero : f.value 0 = 0 := by simp [value, significand]
  rw [← hzero, f.value_strictMono.injective.eq_iff]

theorem value_lt (f : Format) (m : Nat) :
    f.value m < 2 ^ (f.minExponent + f.place m + f.fractionBits + 1) := by
  have hlt : (f.significand m : ℚ) < 2 ^ (f.fractionBits + 1) := by exact_mod_cast f.significand_lt m
  calc f.value m < 2 ^ (f.fractionBits + 1) * 2 ^ (f.minExponent + f.place m) :=
        mul_lt_mul_of_pos_right hlt (zpow_pos two_pos _)
    _ = 2 ^ (f.minExponent + f.place m + f.fractionBits + 1) := by
      rw [add_assoc _ (f.fractionBits : ℤ), zpow_add₀ two_ne_zero _ ((f.fractionBits : ℤ) + 1),
        mul_comm, ← Nat.cast_add_one, zpow_natCast]

theorem le_value (h : f.place m ≠ 0) :
    (2 : ℚ) ^ (f.minExponent + f.place m + f.fractionBits) ≤ f.value m := by
  have hle : (2 : ℚ) ^ f.fractionBits ≤ f.significand m := by exact_mod_cast le_significand h
  calc (2 : ℚ) ^ (f.minExponent + f.place m + f.fractionBits)
      = 2 ^ f.fractionBits * 2 ^ (f.minExponent + f.place m) := by
        rw [zpow_add₀ two_ne_zero, mul_comm, zpow_natCast]
    _ ≤ f.value m := mul_le_mul_of_nonneg_right hle (zpow_pos two_pos _).le

/-- The exponent that a number is rounded with is that of its own magnitude, if it has one. -/
theorem exponent_of_value (hm : 0 < m) :
    max f.minExponent (Int.log 2 (f.value m) - f.fractionBits) = f.minExponent + f.place m := by
  by_cases hplace : f.place m = 0
  · have hpos : 0 < f.value m := by
      rw [← value_eq_zero_iff.mpr rfl]
      exact f.value_strictMono hm
    have hlog := (log_lt_iff hpos _).mpr (f.value_lt m)
    omega
  · have hlog : Int.log 2 (f.value m) = f.minExponent + f.place m + f.fractionBits :=
      log_eq_of_zpow (le_value hplace) (f.value_lt m)
    omega

/-- The magnitude nearest to a number that the format holds is the magnitude of this number. -/
theorem ofQuotient_of_value {n d : Nat} (hd : 0 < d) (hm : m < f.infinity)
    (h : (n : ℚ) / d = f.value m) : f.ofQuotient n d = m := by
  have hd' : (d : ℚ) ≠ 0 := by exact_mod_cast hd.ne'
  unfold ofQuotient
  split
  · rename_i hn
    rw [hn, Nat.cast_zero, zero_div] at h
    exact (value_eq_zero_iff.mp h.symm).symm
  · rename_i hn
    have hpos : 0 < m := by
      refine Nat.pos_of_ne_zero fun hzero => hn ?_
      rw [value_eq_zero_iff.mpr hzero, div_eq_zero_iff] at h
      exact_mod_cast h.resolve_right hd'
    have hexponent : max f.minExponent (binaryOrder n d - f.fractionBits) =
        f.minExponent + f.place m := by
      rw [binaryOrder_eq (Nat.pos_of_ne_zero hn) hd, h, exponent_of_value hpos]
    have hexact : n * 2 ^ (-(f.minExponent + f.place m)).toNat =
        f.significand m * (d * 2 ^ (f.minExponent + f.place m).toNat) := by
      rw [value, two_zpow_eq] at h
      field_simp at h
      rw [mul_left_comm, ← mul_assoc]
      exact_mod_cast h
    dsimp only
    rw [hexponent, hexact, divideHalfEven_mul (by positivity), add_sub_cancel_left,
      Int.toNat_natCast, f.place_add_significand]
    exact Nat.min_eq_right hm.le

section Signs

variable {negative : Bool} {pattern : Nat}

theorem infinity_lt_signWeight (f : Format) : f.infinity < f.signWeight := by
  have hpos := Nat.two_pow_pos f.fractionBits
  rw [← infinity_add]
  omega

theorem isNegative_withSign (h : m < f.signWeight) (negative : Bool) :
    f.isNegative (f.withSign negative m) = negative := by
  cases negative <;> simp [isNegative, withSign, h]

theorem withSign_lt (h : m < f.signWeight) (negative : Bool) :
    f.withSign negative m < 2 * f.signWeight := by
  cases negative <;> simp [withSign] <;> omega

/-- A pattern is put together from its sign and its magnitude. -/
theorem withSign_magnitude (h : pattern < 2 * f.signWeight) :
    f.withSign (f.isNegative pattern) (f.magnitude pattern) = pattern := by
  unfold withSign isNegative magnitude
  by_cases hsign : f.signWeight ≤ pattern
  · rw [Nat.mod_eq_sub_mod hsign, Nat.mod_eq_of_lt (by omega), decide_eq_true hsign, if_pos rfl]
    omega
  · rw [Nat.mod_eq_of_lt (by omega), decide_eq_false hsign]
    rfl

theorem denote_of_eq (h : f.magnitude pattern = f.infinity) :
    f.denote pattern = .infinite (f.isNegative pattern) := by
  rw [denote, if_pos h]

theorem denote_of_gt (h : f.infinity < f.magnitude pattern) : f.denote pattern = .nan := by
  rw [denote, if_neg h.ne', if_pos h]

theorem denote_eq_nan_iff : f.denote pattern = .nan ↔ f.infinity < f.magnitude pattern := by
  refine ⟨fun h => ?_, denote_of_gt⟩
  rcases Nat.lt_trichotomy (f.magnitude pattern) f.infinity with hlt | heq | hgt
  · rw [denote_of_lt hlt] at h
    contradiction
  · rw [denote_of_eq heq] at h
    contradiction
  · exact hgt

theorem denote_withSign (h : m < f.infinity) (negative : Bool) :
    f.denote (f.withSign negative m) =
      .finite negative (f.significand m) (f.minExponent + f.place m) := by
  have hsize := h.trans f.infinity_lt_signWeight
  rw [denote_of_lt (by rwa [magnitude_withSign hsize]), magnitude_withSign hsize,
    isNegative_withSign hsize]

theorem denote_withSign_infinity (f : Format) (negative : Bool) :
    f.denote (f.withSign negative f.infinity) = .infinite negative := by
  rw [denote_of_eq (magnitude_withSign f.infinity_lt_signWeight negative),
    isNegative_withSign f.infinity_lt_signWeight]

theorem denote_withSign_nan {fraction : Nat} (hpos : 0 < fraction)
    (hlt : fraction < 2 ^ f.fractionBits) (negative : Bool) :
    f.denote (f.withSign negative (f.infinity + fraction)) = .nan := by
  have hsize : f.infinity + fraction < f.signWeight := by
    rw [← infinity_add]
    omega
  rw [denote_eq_nan_iff, magnitude_withSign hsize]
  omega

end Signs

section Conversion

variable {source target : Format} {pattern pattern' : Nat}

/-- Patterns of one number are finite with the same sign and the same value, or both those of an
infinity, or both those of no number. -/
theorem same_denote_iff : (source.denote pattern).Same (target.denote pattern') ↔
    (source.magnitude pattern < source.infinity ∧ target.magnitude pattern' < target.infinity ∧
      source.isNegative pattern = target.isNegative pattern' ∧
      source.value (source.magnitude pattern) = target.value (target.magnitude pattern')) ∨
    (source.magnitude pattern = source.infinity ∧ target.magnitude pattern' = target.infinity ∧
      source.isNegative pattern = target.isNegative pattern') ∨
    (source.infinity < source.magnitude pattern ∧ target.infinity < target.magnitude pattern') := by
  rcases Nat.lt_trichotomy (source.magnitude pattern) source.infinity with hlt | heq | hgt
  · rw [denote_of_lt hlt]
    rcases Nat.lt_trichotomy (target.magnitude pattern') target.infinity with hlt' | heq' | hgt'
    · simp [denote_of_lt hlt', Denotation.Same, value, hlt, hlt', hlt.ne, hlt.not_gt]
    · simp [denote_of_eq heq', Denotation.Same, heq', hlt.ne, hlt.not_gt]
    · simp [denote_of_gt hgt', Denotation.Same, hgt'.not_gt, hlt.ne, hlt.not_gt]
  · rw [denote_of_eq heq]
    rcases Nat.lt_trichotomy (target.magnitude pattern') target.infinity with hlt' | heq' | hgt'
    · simp [denote_of_lt hlt', Denotation.Same, heq, hlt'.ne]
    · simp [denote_of_eq heq', Denotation.Same, heq, heq']
    · simp [denote_of_gt hgt', Denotation.Same, heq, hgt'.ne']
  · rw [denote_of_gt hgt]
    rcases Nat.lt_trichotomy (target.magnitude pattern') target.infinity with hlt' | heq' | hgt'
    · simp [denote_of_lt hlt', Denotation.Same, hgt.not_gt, hgt.ne', hlt'.not_gt]
    · simp [denote_of_eq heq', Denotation.Same, heq', hgt.not_gt, hgt.ne']
    · simp [denote_of_gt hgt', Denotation.Same, hgt, hgt']

/-- A finite number is converted by rounding the quotient that it is. -/
theorem exists_convert_of_finite (target : Format) (h : source.magnitude pattern < source.infinity) :
    ∃ n d : Nat, 0 < d ∧ (n : ℚ) / d = source.value (source.magnitude pattern) ∧
      source.convert target pattern =
        target.withSign (source.isNegative pattern) (target.ofQuotient n d) := by
  rw [convert, denote_of_lt h]
  refine ⟨_, _, Nat.two_pow_pos _, ?_, rfl⟩
  rw [value, two_zpow_eq]
  push_cast
  ring

/-- A number that the other format holds is converted to itself. -/
theorem convert_of_value (hfinite : source.magnitude pattern < source.infinity)
    (hm : m < target.infinity) (h : target.value m = source.value (source.magnitude pattern)) :
    source.convert target pattern = target.withSign (source.isNegative pattern) m := by
  obtain ⟨n, d, hd, hquotient, hconvert⟩ := exists_convert_of_finite target hfinite
  rw [hconvert, ofQuotient_of_value hd hm (hquotient.trans h.symm)]

theorem convert_of_infinite (h : source.magnitude pattern = source.infinity) :
    source.convert target pattern = target.withSign (source.isNegative pattern) target.infinity := by
  rw [convert, denote_of_eq h]

/-- The pattern of a not-a-number has some bits of a fraction, of which the quiet bit is one. -/
theorem exists_convert_of_nan (h : source.infinity < source.magnitude pattern)
    (hbits : 0 < target.fractionBits) :
    ∃ fraction, 0 < fraction ∧ fraction < 2 ^ target.fractionBits ∧
      source.convert target pattern =
        target.withSign (source.isNegative pattern) (target.infinity + fraction) := by
  have hfraction := Nat.mod_lt pattern (Nat.two_pow_pos source.fractionBits)
  have hwidth : source.fractionBits + (target.fractionBits - source.fractionBits) =
      source.fractionBits - target.fractionBits + target.fractionBits := by omega
  rw [convert, denote_of_gt h]
  refine ⟨_, ?_, Nat.or_lt_two_pow ?_ (Nat.div_lt_of_lt_mul ?_), rfl⟩
  · exact Nat.lt_of_lt_of_le (Nat.two_pow_pos _) Nat.left_le_or
  · exact Nat.pow_lt_pow_right (by decide) (by omega)
  · rw [← Nat.pow_add, ← hwidth, Nat.pow_add]
    exact Nat.mul_lt_mul_of_pos_right hfraction (Nat.two_pow_pos _)

theorem convert_lt (hbits : 0 < target.fractionBits) (source : Format) (pattern : Nat) :
    source.convert target pattern < 2 * target.signWeight := by
  have hinfinity := target.infinity_lt_signWeight
  rcases Nat.lt_trichotomy (source.magnitude pattern) source.infinity with hlt | heq | hgt
  · rw [convert, denote_of_lt hlt]
    exact withSign_lt (Nat.lt_of_le_of_lt (ofQuotient_le ..) hinfinity) _
  · rw [convert_of_infinite heq]
    exact withSign_lt hinfinity _
  · obtain ⟨fraction, -, hfraction, hconvert⟩ := exists_convert_of_nan hgt hbits
    have hroom := target.infinity_add
    rw [hconvert]
    exact withSign_lt (by omega) _

/-- A pattern is converted to the pattern of the same number, if there is one. -/
theorem convert_of_same (hsize : pattern' < 2 * target.signWeight)
    (hnan : target.denote pattern' ≠ .nan)
    (h : (source.denote pattern).Same (target.denote pattern')) :
    source.convert target pattern = pattern' := by
  have hself := withSign_magnitude hsize
  rcases same_denote_iff.mp h with ⟨hfinite, hlt, hsign, hvalue⟩ | ⟨hinfinite, heq, hsign⟩ | ⟨-, hgt⟩
  · rw [convert_of_value hfinite hlt hvalue.symm, hsign, hself]
  · rw [convert_of_infinite hinfinite, hsign, ← heq, hself]
  · exact absurd (denote_of_gt hgt) hnan

end Conversion

end Format

end Canopen.Number
