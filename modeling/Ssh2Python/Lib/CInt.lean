import Mathlib.Data.Int.Basic
import Mathlib.Tactic.NormNum

/-!
# C integers

Integers of a C program are mathematical integers here, and a C integer type is a width with a sign:
it has a range, and a conversion that keeps a number exactly when it is in the range. `toInt32` is
the conversion to a 32-bit `int`, `toUInt32` to `unsigned int` and `toSize` to a 64-bit `size_t`.
-/

namespace Lib.CInt

/-! ## Integer types -/

structure IntType where
  bits : Nat
  signed : Bool
  bits_pos : 0 < bits
  deriving DecidableEq

namespace IntType

def lo (t : IntType) : Int :=
  if t.signed then -2 ^ (t.bits - 1) else 0

/-- The first number above the range. -/
def hi (t : IntType) : Int :=
  if t.signed then 2 ^ (t.bits - 1) else 2 ^ t.bits

def Contains (t : IntType) (x : Int) : Prop :=
  t.lo ≤ x ∧ x < t.hi

instance (t : IntType) (x : Int) : Decidable (t.Contains x) :=
  inferInstanceAs (Decidable (_ ∧ _))

/-- The value of a number in the type. -/
def convert (t : IntType) (x : Int) : Int :=
  if t.signed then x.bmod (2 ^ t.bits) else x % 2 ^ t.bits

variable {t : IntType} {x y : Int}

theorem modulus_eq (t : IntType) : (2 : Int) ^ t.bits = 2 * 2 ^ (t.bits - 1) := by
  have h := t.bits_pos
  rw [← pow_succ', Nat.sub_add_cancel h]

/-- The range is as large as the modulus. -/
theorem hi_sub_lo (t : IntType) : t.hi - t.lo = 2 ^ t.bits := by
  unfold hi lo
  rw [t.modulus_eq]
  split <;> omega

theorem convert_contains (t : IntType) (x : Int) : t.Contains (t.convert x) := by
  have hmodulus := t.modulus_eq
  have hpos : (0 : Int) < 2 ^ (t.bits - 1) := by positivity
  unfold Contains convert lo hi
  split
  · have hle := @Int.le_bmod x (2 ^ t.bits) (by positivity)
    have hlt := @Int.bmod_lt x (2 ^ t.bits) (by positivity)
    push_cast at hle hlt
    omega
  · exact ⟨Int.emod_nonneg x (by omega), Int.emod_lt_of_pos x (by omega)⟩

theorem dvd_sub_convert (t : IntType) (x : Int) : (2 : Int) ^ t.bits ∣ x - t.convert x := by
  unfold convert
  split
  · have h : ((2 ^ t.bits : Nat) : Int) ∣ x - x.bmod (2 ^ t.bits) := Int.dvd_self_sub_bmod
    push_cast at h
    exact h
  · exact Int.dvd_self_sub_emod

/-- Numbers of the range are told apart by their remainders. -/
theorem Contains.eq_of_dvd (hx : t.Contains x) (hy : t.Contains y)
    (h : (2 : Int) ^ t.bits ∣ x - y) : x = y := by
  obtain ⟨hx₁, hx₂⟩ := hx
  obtain ⟨hy₁, hy₂⟩ := hy
  have hrange := t.hi_sub_lo
  have habs : |x - y| < 2 ^ t.bits := by
    rw [abs_lt]
    omega
  have hzero := Int.eq_zero_of_abs_lt_dvd h habs
  omega

/-- **The range of a type**: the conversion keeps a number exactly when it is in the range. -/
theorem convert_eq_iff : t.convert x = x ↔ t.Contains x := by
  constructor
  · intro h
    rw [← h]
    exact t.convert_contains x
  · intro h
    exact ((h.eq_of_dvd (t.convert_contains x)) (t.dvd_sub_convert x)).symm

/-- On its way to a type that begins no later, a number can only be too large. -/
theorem Contains.contains_iff_lt {s : IntType} (h : s.Contains x) (hlo : t.lo ≤ s.lo) :
    t.Contains x ↔ x < t.hi :=
  and_iff_right (hlo.trans h.1)

/-! ### The types of LP64 -/

def uchar : IntType := ⟨8, false, by decide⟩

def int : IntType := ⟨32, true, by decide⟩

def uint : IntType := ⟨32, false, by decide⟩

def long : IntType := ⟨64, true, by decide⟩

def ulong : IntType := ⟨64, false, by decide⟩

end IntType

/-! ## Conversions to 32 and 64 bits -/

def toInt32 (x : Int) : Int :=
  x.bmod (2 ^ 32)

def toUInt32 (x : Int) : Int :=
  x % 2 ^ 32

def toSize (x : Int) : Nat :=
  (x % 2 ^ 64).toNat

theorem toInt32_lt (x : Int) : toInt32 x < 2 ^ 31 :=
  (IntType.int.convert_contains x).2

theorem le_toInt32 (x : Int) : -2 ^ 31 ≤ toInt32 x :=
  (IntType.int.convert_contains x).1

theorem toInt32_dvd (x : Int) : (2 ^ 32 : Int) ∣ x - toInt32 x :=
  IntType.int.dvd_sub_convert x

/-- **The range of `int`**. -/
theorem toInt32_eq_iff {x : Int} : toInt32 x = x ↔ -2 ^ 31 ≤ x ∧ x < 2 ^ 31 :=
  IntType.int.convert_eq_iff

/-- A length comes out of an `int` as no negative number exactly when it is in the lower half of its
32 bits. -/
theorem toInt32_nonneg_iff {n : Nat} : 0 ≤ toInt32 n ↔ n % 2 ^ 32 < 2 ^ 31 := by
  have hlt := toInt32_lt n
  have hle := le_toInt32 n
  obtain ⟨k, hk⟩ := toInt32_dvd n
  generalize toInt32 n = a at *
  omega

@[simp] theorem toInt32_toUInt32 (x : Int) : toInt32 (toUInt32 x) = toInt32 x := by
  unfold toInt32 toUInt32
  exact Int.emod_bmod x (2 ^ 32)

theorem toUInt32_lt (x : Int) : toUInt32 x < 2 ^ 32 :=
  Int.emod_lt_of_pos x (by norm_num)

theorem toUInt32_eq {x : Int} (h₀ : 0 ≤ x) (h : x < 2 ^ 32) : toUInt32 x = x :=
  Int.emod_eq_of_lt h₀ h

theorem toUInt32_le {n : Nat} : (toUInt32 n).toNat ≤ n := by
  unfold toUInt32
  omega

/-- **The range of `unsigned int`**. -/
theorem toUInt32_eq_iff {n : Nat} : (toUInt32 n).toNat = n ↔ n < 2 ^ 32 := by
  unfold toUInt32
  omega

theorem toSize_eq {x : Int} (h₀ : 0 ≤ x) (h : x < 2 ^ 64) : toSize x = x.toNat := by
  unfold toSize
  rw [Int.emod_eq_of_lt h₀ h]

theorem toSize_sub {a b : Nat} (hba : b ≤ a) (ha : a < 2 ^ 64) :
    toSize ((a : Int) - (b : Int)) = a - b := by
  rw [toSize_eq (by omega) (by omega)]
  omega

/-- A length that passes through an `int` on its way to a `size_t`. -/
theorem toSize_toInt32_eq_iff {n m : Nat} (hnm : n ≤ m) (hm : m < 2 ^ 63) :
    toSize (toInt32 n) = m ↔ n = m ∧ m < 2 ^ 31 := by
  have hlt := toInt32_lt n
  have hle := le_toInt32 n
  obtain ⟨k, hk⟩ := toInt32_dvd n
  unfold toSize
  omega

theorem toInt32_inj {x y : Int} : toInt32 x = toInt32 y ↔ x % 2 ^ 32 = y % 2 ^ 32 := by
  have hx := And.intro (toInt32_lt x) (le_toInt32 x)
  have hy := And.intro (toInt32_lt y) (le_toInt32 y)
  obtain ⟨k, hk⟩ := toInt32_dvd x
  obtain ⟨l, hl⟩ := toInt32_dvd y
  generalize toInt32 x = a at *
  generalize toInt32 y = b at *
  omega

/-- Two lengths are the same after such a passage when they agree in 32 bits. -/
theorem toSize_toInt32_inj {n m : Nat} :
    toSize (toInt32 n) = toSize (toInt32 m) ↔ n % 2 ^ 32 = m % 2 ^ 32 := by
  have hn := And.intro (toInt32_lt n) (le_toInt32 n)
  have hm := And.intro (toInt32_lt m) (le_toInt32 m)
  have hsize : toSize (toInt32 n) = toSize (toInt32 m) ↔ toInt32 n = toInt32 m := by
    generalize toInt32 n = a at *
    generalize toInt32 m = b at *
    unfold toSize
    omega
  rw [hsize, toInt32_inj]
  norm_cast

end Lib.CInt
