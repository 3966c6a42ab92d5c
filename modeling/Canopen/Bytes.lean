import Canopen.Number.Power
/-!
# Little-endian bytes

Multi-byte numbers travel with their least significant byte first.
-/
namespace Canopen.Bytes

/-- The `count` low bytes of a number, least significant first. -/
def littleEndian : Nat → Nat → List UInt8
  | 0, _ => []
  | count + 1, n => UInt8.ofNat (n % 256) :: littleEndian count (n / 256)

/-- The number whose bytes are given, least significant first. -/
def toNat : List UInt8 → Nat
  | [] => 0
  | b :: rest => b.toNat + 256 * toNat rest

def dropTrailingZeros (bytes : List UInt8) : List UInt8 :=
  (bytes.reverse.dropWhile (· == 0)).reverse

theorem length_dropTrailingZeros_le (data : List UInt8) :
    (dropTrailingZeros data).length ≤ data.length := by
  have h := (data.reverse.dropWhile_sublist (· == 0)).length_le
  simpa [dropTrailingZeros] using h

def padTo (length : Nat) (bytes : List UInt8) : List UInt8 :=
  bytes ++ List.replicate (length - bytes.length) 0

@[simp] theorem length_littleEndian (count n : Nat) : (littleEndian count n).length = count := by
  induction count generalizing n with
  | zero => rfl
  | succ count ih => simp [littleEndian, ih]

theorem toNat_lt (bytes : List UInt8) : toNat bytes < 256 ^ bytes.length := by
  induction bytes with
  | nil => simp [toNat]
  | cons b rest ih =>
    have hb := b.toNat_lt
    simp only [toNat, List.length_cons, Nat.pow_succ]
    omega

@[simp] theorem toNat_littleEndian (count n : Nat) :
    toNat (littleEndian count n) = n % 256 ^ count := by
  induction count generalizing n with
  | zero => simp [littleEndian, toNat, Nat.mod_one]
  | succ count ih =>
    have hb : (UInt8.ofNat (n % 256)).toNat = n % 256 := by simp
    rw [littleEndian, toNat, ih, hb, Nat.pow_succ, Nat.mul_comm (256 ^ count),
      Nat.mod_mul]

@[simp] theorem littleEndian_toNat (bytes : List UInt8) :
    littleEndian bytes.length (toNat bytes) = bytes := by
  induction bytes with
  | nil => rfl
  | cons b rest ih =>
    have hb := b.toNat_lt
    have hm : (b.toNat + 256 * toNat rest) % 256 = b.toNat := by omega
    have hd : (b.toNat + 256 * toNat rest) / 256 = toNat rest := by omega
    simp [toNat, littleEndian, hm, hd, ih]

def word16 (a b : UInt8) : UInt16 := UInt16.ofNat (toNat [a, b])

def word32 (a b c d : UInt8) : UInt32 := UInt32.ofNat (toNat [a, b, c, d])

def ofWord16 (w : UInt16) : List UInt8 := littleEndian 2 w.toNat

def ofWord32 (w : UInt32) : List UInt8 := littleEndian 4 w.toNat

theorem exists_ofWord16 (w : UInt16) : ∃ a b, ofWord16 w = [a, b] ∧ word16 a b = w := by
  have hw := w.toNat_lt
  have h : toNat (littleEndian 2 w.toNat) = w.toNat := by
    rw [toNat_littleEndian, Nat.mod_eq_of_lt (by omega)]
  exact ⟨_, _, rfl, (congrArg UInt16.ofNat h).trans UInt16.ofNat_toNat⟩

theorem exists_ofWord32 (w : UInt32) :
    ∃ a b c d, ofWord32 w = [a, b, c, d] ∧ word32 a b c d = w := by
  have hw := w.toNat_lt
  have h : toNat (littleEndian 4 w.toNat) = w.toNat := by
    rw [toNat_littleEndian, Nat.mod_eq_of_lt (by omega)]
  exact ⟨_, _, _, _, rfl, (congrArg UInt32.ofNat h).trans UInt32.ofNat_toNat⟩

@[simp] theorem ofWord16_word16 (a b : UInt8) : ofWord16 (word16 a b) = [a, b] := by
  have h : toNat [a, b] < 2 ^ 16 := by simpa using toNat_lt [a, b]
  have hw : (word16 a b).toNat = toNat [a, b] := by
    rw [word16, UInt16.toNat_ofNat', Nat.mod_eq_of_lt h]
  rw [ofWord16, hw]
  exact littleEndian_toNat [a, b]

@[simp] theorem ofWord32_word32 (a b c d : UInt8) :
    ofWord32 (word32 a b c d) = [a, b, c, d] := by
  have h : toNat [a, b, c, d] < 2 ^ 32 := by simpa using toNat_lt [a, b, c, d]
  have hw : (word32 a b c d).toNat = toNat [a, b, c, d] := by
    rw [word32, UInt32.toNat_ofNat', Nat.mod_eq_of_lt h]
  rw [ofWord32, hw]
  exact littleEndian_toNat [a, b, c, d]

@[simp] theorem length_padTo {length : Nat} {bytes : List UInt8} (h : bytes.length ≤ length) :
    (padTo length bytes).length = length := by
  simp [padTo]; omega

end Canopen.Bytes
