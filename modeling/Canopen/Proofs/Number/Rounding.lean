import Canopen.Proofs.Number.Widening
import Mathlib.Algebra.Order.Group.Abs
import Mathlib.Algebra.Order.Ring.Abs
import Mathlib.Algebra.Ring.Parity
import Mathlib.Tactic.Linarith
/-!
# Rounding to the nearest

The pattern of a quotient is that of the number nearest to it, the even one of two that are equally near
(`Format.rounded_nearest`). So is the pattern of 32 bits to which a number of 64 bits in their range is
narrowed (`Binary64.roundsTo_narrow`).
-/
namespace Canopen.Number

/-- A quotient is rounded by a half at most, and by a half only to an even number. -/
theorem divideHalfEven_near {d : Nat} (hd : 0 < d) (n : Nat) :
    |(divideHalfEven n d : ℚ) - n / d| ≤ 1 / 2 ∧
      (|(divideHalfEven n d : ℚ) - n / d| = 1 / 2 → Even (divideHalfEven n d)) := by
  have hd' : (0 : ℚ) < d := by exact_mod_cast hd
  have hparts : (n : ℚ) / d = (n / d : Nat) + (n % d : Nat) / d := by
    have hn : (n : ℚ) = d * (n / d : Nat) + (n % d : Nat) := by
      exact_mod_cast (Nat.div_add_mod n d).symm
    rw [hn, add_div, mul_div_cancel_left₀ _ hd'.ne']
  have hrest : (0 : ℚ) ≤ (n % d : Nat) / d := by positivity
  have hbelow : ((n % d : Nat) : ℚ) / d < 1 := by
    rw [div_lt_one hd']
    exact_mod_cast Nat.mod_lt n hd
  unfold divideHalfEven
  dsimp only
  rw [hparts]
  generalize n / d = q
  generalize n % d = r at hrest hbelow
  split
  · rename_i hless
    have hhalf : (r : ℚ) / d < 1 / 2 := by
      rw [div_lt_div_iff₀ hd' two_pos]
      exact_mod_cast (by omega : r * 2 < 1 * d)
    have habs : |(q : ℚ) - (q + r / d)| = r / d := by
      rw [sub_add_cancel_left, abs_neg, abs_of_nonneg hrest]
    rw [habs]
    exact ⟨hhalf.le, fun heq => absurd heq hhalf.ne⟩
  · split
    · rename_i hmore
      have hhalf : 1 / 2 < (r : ℚ) / d := by
        rw [div_lt_div_iff₀ two_pos hd']
        exact_mod_cast (by omega : 1 * d < r * 2)
      have habs : |((q + 1 : Nat) : ℚ) - (q + r / d)| = 1 - r / d := by
        rw [Nat.cast_add_one, add_sub_add_left_eq_sub, abs_of_pos (by linarith)]
      rw [habs]
      exact ⟨by linarith, fun heq => by linarith⟩
    · rename_i hless hmore
      have hhalf : (r : ℚ) / d = 1 / 2 := by
        rw [div_eq_div_iff hd'.ne' two_ne_zero]
        exact_mod_cast (by omega : r * 2 = 1 * d)
      have heven : Even (q + q % 2) := by
        rw [Nat.even_iff]
        omega
      have habs : |((q + q % 2 : Nat) : ℚ) - (q + r / d)| = 1 / 2 := by
        rw [hhalf, Nat.cast_add, add_sub_add_left_eq_sub]
        rcases Nat.mod_two_eq_zero_or_one q with hq | hq <;> rw [hq] <;> norm_num
      exact ⟨habs.le, fun _ => heven⟩

/-- Every other whole number is at least as far away as the rounded quotient. -/
theorem divideHalfEven_nearest {d k : Nat} (hd : 0 < d) (n : Nat) (hk : k ≠ divideHalfEven n d) :
    |(divideHalfEven n d : ℚ) - n / d| ≤ |(k : ℚ) - n / d| ∧
      (|(k : ℚ) - n / d| = |(divideHalfEven n d : ℚ) - n / d| → Even (divideHalfEven n d)) := by
  obtain ⟨hnear, heven⟩ := divideHalfEven_near hd n
  have hapart : 1 ≤ |(k : ℚ) - divideHalfEven n d| := by
    have hne : (k : ℤ) - divideHalfEven n d ≠ 0 := by omega
    exact_mod_cast Int.one_le_abs hne
  have htriangle := abs_sub_le (k : ℚ) (n / d) (divideHalfEven n d)
  rw [abs_sub_comm ((n : ℚ) / d)] at htriangle
  exact ⟨by linarith, fun heq => heven (by linarith)⟩

namespace Format

variable {f : Format} {n d m : Nat}

/-- The exponent of the last place with which a quotient is rounded. -/
def exponentOf (f : Format) (n d : Nat) : ℤ := max f.minExponent (binaryOrder n d - f.fractionBits)

/-- The significand of a quotient, rounded. -/
def roundedSignificand (f : Format) (n d : Nat) : Nat :=
  divideHalfEven (n * 2 ^ (-f.exponentOf n d).toNat) (d * 2 ^ (f.exponentOf n d).toNat)

/-- The magnitude nearest to a quotient in a format without a largest exponent. -/
def rounded (f : Format) (n d : Nat) : Nat :=
  (f.exponentOf n d - f.minExponent).toNat * 2 ^ f.fractionBits + f.roundedSignificand n d

theorem ofQuotient_eq (hn : n ≠ 0) : f.ofQuotient n d = min f.infinity (f.rounded n d) := by
  rw [ofQuotient, if_neg hn]
  rfl

/-- How many binades lie below a quotient. -/
theorem exists_exponentOf_eq (f : Format) (n d : Nat) :
    ∃ p : Nat, f.exponentOf n d = f.minExponent + p ∧
      f.rounded n d = p * 2 ^ f.fractionBits + f.roundedSignificand n d := by
  have hle : f.minExponent ≤ f.exponentOf n d := le_max_left ..
  exact ⟨(f.exponentOf n d - f.minExponent).toNat, by omega, rfl⟩

/-- A quotient in units of the last place with which it is rounded. -/
theorem scaled_eq (hd : 0 < d) (e : ℤ) :
    ((n * 2 ^ (-e).toNat : Nat) : ℚ) / (d * 2 ^ e.toNat : Nat) = n / d / 2 ^ e := by
  have hd' : (d : ℚ) ≠ 0 := by exact_mod_cast hd.ne'
  rw [two_zpow_eq]
  push_cast
  field_simp

theorem near_roundedSignificand (hd : 0 < d) (f : Format) (n : Nat) :
    |(f.roundedSignificand n d : ℚ) - n / d / 2 ^ f.exponentOf n d| ≤ 1 / 2 := by
  rw [← scaled_eq hd]
  exact (divideHalfEven_near (by positivity) _).1

/-- No other number with the last place of the rounded one is nearer. -/
theorem roundedSignificand_nearest (hd : 0 < d) (f : Format) (n : Nat) {k : Nat}
    (hk : k ≠ f.roundedSignificand n d) :
    |f.roundedSignificand n d * 2 ^ f.exponentOf n d - (n : ℚ) / d| ≤
        |k * 2 ^ f.exponentOf n d - (n : ℚ) / d| ∧
      (|k * 2 ^ f.exponentOf n d - (n : ℚ) / d| =
        |f.roundedSignificand n d * 2 ^ f.exponentOf n d - (n : ℚ) / d| →
          Even (f.roundedSignificand n d)) := by
  have hplace : (0 : ℚ) < 2 ^ f.exponentOf n d := zpow_pos two_pos _
  have hscale (j : Nat) : |j * 2 ^ f.exponentOf n d - (n : ℚ) / d| =
      |(j : ℚ) - n / d / 2 ^ f.exponentOf n d| * 2 ^ f.exponentOf n d := by
    rw [← abs_of_pos hplace, ← abs_mul, sub_mul, abs_of_pos hplace, div_mul_cancel₀ _ hplace.ne']
  obtain ⟨hnear, heven⟩ := divideHalfEven_nearest (by positivity)
    (n * 2 ^ (-f.exponentOf n d).toNat) hk
  rw [scaled_eq hd] at hnear heven
  rw [hscale, hscale]
  exact ⟨mul_le_mul_of_nonneg_right hnear hplace.le,
    fun heq => heven (mul_right_cancel₀ hplace.ne' heq)⟩

section Quotient

variable (hn : 0 < n) (hd : 0 < d)

include hn hd

theorem quotient_lt (f : Format) :
    (n : ℚ) / d < 2 ^ (f.exponentOf n d + f.fractionBits + 1) := by
  have hq : (0 : ℚ) < n / d := by positivity
  have hle : Int.log 2 ((n : ℚ) / d) - f.fractionBits ≤ f.exponentOf n d := by
    rw [exponentOf, binaryOrder_eq hn hd]
    exact le_max_right ..
  exact (log_lt_iff hq _).mp (by omega)

theorem le_quotient (h : f.exponentOf n d ≠ f.minExponent) :
    (2 : ℚ) ^ (f.exponentOf n d + f.fractionBits) ≤ n / d := by
  have hq : (0 : ℚ) < n / d := by positivity
  have heq : f.exponentOf n d = Int.log 2 ((n : ℚ) / d) - f.fractionBits := by
    rw [exponentOf, binaryOrder_eq hn hd] at h ⊢
    omega
  exact (le_log_iff hq _).mp (by omega)

theorem roundedSignificand_le (f : Format) : f.roundedSignificand n d ≤ 2 ^ (f.fractionBits + 1) := by
  have hlt := quotient_lt hn hd f
  have hnear := (abs_le.mp (near_roundedSignificand hd f n)).2
  rw [add_assoc, zpow_add₀ two_ne_zero, ← div_lt_iff₀' (zpow_pos two_pos _)] at hlt
  have hcast : (f.roundedSignificand n d : ℚ) < (2 ^ (f.fractionBits + 1) + 1 : Nat) := by
    push_cast
    rw [← zpow_natCast]
    push_cast
    linarith
  exact Nat.lt_succ_iff.mp (by exact_mod_cast hcast)

theorem le_roundedSignificand (h : f.exponentOf n d ≠ f.minExponent) :
    2 ^ f.fractionBits ≤ f.roundedSignificand n d := by
  have hle := le_quotient hn hd h
  have hnear := (abs_le.mp (near_roundedSignificand hd f n)).1
  rw [zpow_add₀ two_ne_zero, ← le_div_iff₀' (zpow_pos two_pos _), zpow_natCast] at hle
  have hcast : ((2 ^ f.fractionBits : Nat) : ℚ) < (f.roundedSignificand n d + 1 : Nat) := by
    push_cast
    linarith
  exact Nat.lt_succ_iff.mp (by exact_mod_cast hcast)

/-- A significand that is rounded up to the next power of two begins the next binade. -/
theorem value_rounded (f : Format) :
    f.value (f.rounded n d) = f.roundedSignificand n d * 2 ^ f.exponentOf n d := by
  obtain ⟨p, hp, hrounded⟩ := exists_exponentOf_eq f n d
  have hle := roundedSignificand_le hn hd f
  have hge : p ≠ 0 → 2 ^ f.fractionBits ≤ f.roundedSignificand n d :=
    fun h => le_roundedSignificand hn hd (by omega)
  rw [hrounded, hp]
  rcases Nat.lt_or_eq_of_le hle with hlt | heq
  · exact value_of_parts hlt hge
  · have hnext : p * 2 ^ f.fractionBits + 2 ^ (f.fractionBits + 1) =
        (p + 1) * 2 ^ f.fractionBits + 2 ^ f.fractionBits := by ring
    have hpow : 2 ^ f.fractionBits < 2 ^ (f.fractionBits + 1) :=
      Nat.pow_lt_pow_right (by decide) (Nat.lt_succ_self _)
    rw [heq, hnext, value_of_parts hpow fun _ => le_refl _]
    push_cast
    rw [pow_succ, ← add_assoc, zpow_add_one₀ two_ne_zero]
    ring

/-- A number of a lower binade is farther away than the beginning of the binade of the quotient. -/
theorem lt_of_lower {p : Nat} (hp : f.exponentOf n d = f.minExponent + p) (hlow : f.place m < p) :
    |((2 ^ f.fractionBits : Nat) : ℚ) * 2 ^ f.exponentOf n d - n / d| < |f.value m - n / d| := by
  have hle := le_quotient hn hd (f := f) (by omega)
  have hbegin : ((2 ^ f.fractionBits : Nat) : ℚ) * 2 ^ f.exponentOf n d =
      2 ^ (f.exponentOf n d + f.fractionBits) := by
    rw [zpow_add₀ two_ne_zero, zpow_natCast, mul_comm]
    push_cast
    rfl
  have hvalue : f.value m < 2 ^ (f.exponentOf n d + f.fractionBits) :=
    (f.value_lt m).trans_le (zpow_le_zpow_right₀ one_le_two (by omega))
  rw [hbegin, abs_sub_comm, abs_sub_comm (f.value m), abs_of_nonneg (by linarith),
    abs_of_pos (by linarith)]
  linarith

/-- No magnitude is nearer to a quotient than the rounded one, and of two that are equally near the
rounded one is even. -/
theorem rounded_nearest (hm : m ≠ f.rounded n d) :
    |f.value (f.rounded n d) - n / d| ≤ |f.value m - n / d| ∧
      (|f.value m - n / d| = |f.value (f.rounded n d) - n / d| → 0 < f.fractionBits →
        Even (f.rounded n d)) := by
  obtain ⟨p, hp, hrounded⟩ := exists_exponentOf_eq f n d
  have hvalue := value_rounded hn hd f
  rcases Nat.lt_or_ge (f.place m) p with hlow | hhigh
  · have hfar := lt_of_lower hn hd hp hlow
    have hnear : |f.value (f.rounded n d) - n / d| ≤
        |((2 ^ f.fractionBits : Nat) : ℚ) * 2 ^ f.exponentOf n d - n / d| := by
      rw [hvalue]
      by_cases hk : 2 ^ f.fractionBits = f.roundedSignificand n d
      · rw [hk]
      · exact (roundedSignificand_nearest hd f n hk).1
    exact ⟨(hnear.trans_lt hfar).le, fun heq => absurd heq (hnear.trans_lt hfar).ne'⟩
  · -- From the binade of the quotient on, all numbers are whole in units of its last place.
    have hwhole : f.value m =
        ((f.significand m * 2 ^ (f.place m - p) : Nat) : ℚ) * 2 ^ f.exponentOf n d := by
      have hexponent : f.minExponent + f.place m = (f.place m - p : Nat) + f.exponentOf n d := by omega
      rw [value, hexponent, zpow_add₀ two_ne_zero, zpow_natCast]
      push_cast
      ring
    have hk : f.significand m * 2 ^ (f.place m - p) ≠ f.roundedSignificand n d := by
      intro heq
      rw [heq, ← hvalue] at hwhole
      exact hm (f.value_strictMono.injective hwhole)
    obtain ⟨hnear, heven⟩ := roundedSignificand_nearest hd f n hk
    rw [hvalue, hwhole, hrounded]
    refine ⟨hnear, fun heq hbits => ?_⟩
    have hfield : Even (2 ^ f.fractionBits) := (Nat.even_pow.mpr ⟨even_two, hbits.ne'⟩)
    exact (hfield.mul_left p).add (heven heq)

end Quotient

/-- A quotient not above a finite number is not rounded to infinity. -/
theorem rounded_lt_infinity (hn : 0 < n) (hd : 0 < d) (hm : m < f.infinity)
    (h : (n : ℚ) / d ≤ f.value m) : f.rounded n d < f.infinity := by
  by_contra hge
  have hlt : f.value m < f.value (f.rounded n d) := f.value_strictMono (by omega)
  obtain ⟨hnear, -⟩ := rounded_nearest hn hd (f := f) (m := m) (by omega)
  rw [abs_of_pos (by linarith), abs_of_nonneg (by linarith)] at hnear
  linarith

/-- The nearest pattern is that of the nearest number, where there is a larger one. -/
theorem ofQuotient_nearest (hd : 0 < d) {top : Nat} (htop : top < f.infinity)
    (h : (n : ℚ) / d ≤ f.value top) :
    f.ofQuotient n d < f.infinity ∧ ∀ m, m ≠ f.ofQuotient n d →
      |f.value (f.ofQuotient n d) - n / d| ≤ |f.value m - n / d| ∧
      (|f.value m - n / d| = |f.value (f.ofQuotient n d) - n / d| → 0 < f.fractionBits →
        Even (f.ofQuotient n d)) := by
  rcases Nat.eq_zero_or_pos n with rfl | hn
  · have hzero : f.ofQuotient 0 d = 0 := by simp [ofQuotient]
    rw [hzero, value_eq_zero_iff.mpr rfl, Nat.cast_zero, zero_div, sub_zero, abs_zero]
    exact ⟨by omega, fun m _ => ⟨abs_nonneg _, fun _ _ => ⟨0, rfl⟩⟩⟩
  · have hlt := rounded_lt_infinity hn hd htop h
    rw [ofQuotient_eq hn.ne', Nat.min_eq_right hlt.le]
    exact ⟨hlt, fun m => rounded_nearest hn hd⟩

end Format

namespace Binary64

open Format

variable {x : Binary64}

/-- Holds of the finite patterns of 32 bits of which the number is nearest to a finite number of 64 bits,
on the same side of zero, and even if another one is equally near. -/
structure RoundsTo (x : Binary64) (s : UInt32) : Prop where
  sign : single.isNegative s.toNat = double.isNegative x.pattern.toNat
  finite : single.magnitude s.toNat < single.infinity
  nearest : ∀ m,
    |single.value (single.magnitude s.toNat) - double.value (double.magnitude x.pattern.toNat)| ≤
      |single.value m - double.value (double.magnitude x.pattern.toNat)|
  even : ∀ m, m ≠ single.magnitude s.toNat →
    |single.value m - double.value (double.magnitude x.pattern.toNat)| =
      |single.value (single.magnitude s.toNat) - double.value (double.magnitude x.pattern.toNat)| →
    Even (single.magnitude s.toNat)

/-- A finite number in the range of 32 bits is narrowed to the nearest of them. -/
theorem roundsTo_narrow (hfinite : x.isFinite) (hrange : ¬x.ExceedsSingle) : x.RoundsTo x.narrow := by
  have hlt : double.magnitude x.pattern.toNat < double.infinity := of_decide_eq_true hfinite
  have hle : double.value (double.magnitude x.pattern.toNat) ≤ single.value single.largest := by
    rw [value_largest]
    exact not_lt.mp fun h => hrange ⟨_, _, _, denote_of_lt hlt, h⟩
  obtain ⟨n, d, hd, hquotient, hconvert⟩ := exists_convert_of_finite single hlt
  rw [← hquotient] at hle
  obtain ⟨hbelow, hnearest⟩ := ofQuotient_nearest hd (by decide) hle
  have hsize := hbelow.trans single.infinity_lt_signWeight
  have hmagnitude : single.magnitude x.narrow.toNat = single.ofQuotient n d := by
    rw [toNat_narrow, hconvert, magnitude_withSign hsize]
  rw [← hmagnitude, hquotient] at hnearest
  refine ⟨?_, hmagnitude ▸ hbelow, fun m => ?_, fun m hm heq => (hnearest m hm).2 heq (by decide)⟩
  · rw [toNat_narrow, hconvert, isNegative_withSign hsize]
  · by_cases hm : m = single.magnitude x.narrow.toNat
    · rw [hm]
    · exact (hnearest m hm).1

end Binary64

end Canopen.Number
