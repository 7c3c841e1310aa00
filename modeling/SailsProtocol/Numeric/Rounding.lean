import Mathlib.Algebra.Order.Round
import Mathlib.Data.Int.ConditionallyCompleteOrder
import Mathlib.Data.Int.Log
import Mathlib.Data.Rat.Floor
import Mathlib.Tactic.FieldSimp
import Mathlib.Tactic.Linarith
import Mathlib.Tactic.Positivity

/-!
# Rounding to significant digits

A number format keeps `p` digits in base `b` and any exponent. A rational is rounded to
it by scaling it to `p` digits before the point, rounding to an integer there
(`Rounding`), and scaling back (`significant`). Binary doubles keep 53 digits in base 2
with ties to even (`toDouble`).

* `significant_mono` : rounding is monotone;
* `significant_exact` : a number of at most `p` digits is not changed;
* `abs_significant_sub_le` : the error is at most half a unit of the last digit.

Exponents are unbounded here : the numbers in use are far from the ends of the range.
-/

namespace Sails.Numeric

/-! ## Rounding to an integer -/

/-- A monotone choice of a nearest integer. -/
structure Rounding where
  toInt : ℚ → ℤ
  mono : Monotone toInt
  near : ∀ y, |(toInt y : ℚ) - y| ≤ 1 / 2

theorem Rounding.toInt_intCast (r : Rounding) (n : ℤ) : r.toInt n = n := by
  have h := abs_le.mp (r.near n)
  have hlt : (r.toInt n : ℚ) < n + 1 := by linarith
  have hgt : (n : ℚ) - 1 < r.toInt n := by linarith
  have hlt' : r.toInt n < n + 1 := by exact_mod_cast hlt
  have hgt' : n - 1 < r.toInt n := by exact_mod_cast hgt
  omega

@[simp] theorem Rounding.toInt_zero (r : Rounding) : r.toInt 0 = 0 := by
  simpa using r.toInt_intCast 0

theorem Rounding.toInt_nonneg (r : Rounding) {y : ℚ} (h : 0 ≤ y) : 0 ≤ r.toInt y := by
  have := r.mono h
  rwa [r.toInt_zero] at this

/-- Ties go up. -/
def halfUp : Rounding where
  toInt y := ⌊y + 1 / 2⌋
  mono _ _ h := Int.floor_mono (by linarith)
  near y := by
    have hle := Int.floor_le (y + 1 / 2)
    have hlt := Int.lt_floor_add_one (y + 1 / 2)
    rw [abs_le]
    constructor <;> linarith

/-- Ties go to the even integer. -/
def roundEven (y : ℚ) : ℤ :=
  if y - ⌊y⌋ < 1 / 2 then ⌊y⌋
  else if 1 / 2 < y - ⌊y⌋ then ⌊y⌋ + 1
  else ⌊y⌋ + ⌊y⌋ % 2

/-- Half to even moves by a half at most. -/
theorem roundEven_near (y : ℚ) : |(roundEven y : ℚ) - y| ≤ 1 / 2 := by
  have hle := Int.floor_le y
  have hlt := Int.lt_floor_add_one y
  rw [roundEven, abs_le]
  split_ifs with h1 h2
  · constructor <;> linarith
  · push_cast
    constructor <;> linarith
  · rcases Int.emod_two_eq_zero_or_one ⌊y⌋ with h | h
    · rw [h, add_zero]
      constructor <;> linarith
    · rw [h]
      push_cast
      constructor <;> linarith

/-- Half to even keeps the order. -/
theorem roundEven_mono : Monotone roundEven := by
  intro x y h
  rcases (Int.floor_mono h).lt_or_eq with hlt | heq
  · -- the two lie in different unit intervals
    have hx : roundEven x ≤ ⌊x⌋ + 1 := by
      rw [roundEven]
      split_ifs <;> omega
    have hy : ⌊y⌋ ≤ roundEven y := by
      rw [roundEven]
      split_ifs <;> omega
    omega
  · rw [roundEven, roundEven, heq]
    split_ifs <;> first | omega | (exfalso; linarith)

/-- Half to even. -/
def halfEven : Rounding where
  toInt := roundEven
  mono := roundEven_mono
  near := roundEven_near

/-! ## Rounding to `p` digits -/

section Significant

variable (r : Rounding) {b p : ℕ}

/-- One unit of the last of `p` digits of a number. -/
def lastPlace (b p : ℕ) (x : ℚ) : ℚ :=
  (b : ℚ) ^ (Int.log b x - p + 1)

/-- Rounding of a non-negative number. -/
def significantNonneg (b p : ℕ) (x : ℚ) : ℚ :=
  r.toInt (x / lastPlace b p x) * lastPlace b p x

/-- Rounding to `p` digits in base `b`, the same way on both sides of zero. -/
def significant (b p : ℕ) (x : ℚ) : ℚ :=
  if 0 ≤ x then significantNonneg r b p x else -significantNonneg r b p (-x)

theorem lastPlace_pos (hb : 1 < b) (x : ℚ) : 0 < lastPlace b p x := by
  have : (0 : ℚ) < b := by exact_mod_cast Nat.zero_lt_of_lt hb
  exact zpow_pos this _

theorem significantNonneg_nonneg (hb : 1 < b) {x : ℚ} (h : 0 ≤ x) :
    0 ≤ significantNonneg r b p x := by
  have hpos := lastPlace_pos (p := p) hb x
  have := r.toInt_nonneg (div_nonneg h hpos.le)
  exact mul_nonneg (by exact_mod_cast this) hpos.le

/-- A number below a power of the base rounds to at most that power. -/
theorem significantNonneg_le_zpow (hb : 1 < b) {x : ℚ} :
    significantNonneg r b p x ≤ (b : ℚ) ^ (Int.log b x + 1) := by
  have hb0 : (b : ℚ) ≠ 0 := by exact_mod_cast (Nat.zero_lt_of_lt hb).ne'
  have hpos := lastPlace_pos (p := p) hb x
  have hpow : (b : ℚ) ^ (Int.log b x + 1) = ((b ^ p : ℕ) : ℤ) * lastPlace b p x := by
    rw [lastPlace, Int.cast_natCast, Nat.cast_pow, ← zpow_natCast, ← zpow_add₀ hb0]
    congr 1
    ring
  have hlt : x / lastPlace b p x ≤ ((b ^ p : ℕ) : ℤ) := by
    rw [div_le_iff₀ hpos, ← hpow]
    exact (Int.lt_zpow_succ_log_self hb x).le
  have := r.mono hlt
  rw [r.toInt_intCast] at this
  rw [hpow, significantNonneg]
  exact mul_le_mul_of_nonneg_right (by exact_mod_cast this) hpos.le

/-- A number at or above a power of the base rounds to at least that power. -/
theorem zpow_le_significantNonneg (hb : 1 < b) (hp : 0 < p) {x : ℚ} (hx : 0 < x) :
    (b : ℚ) ^ Int.log b x ≤ significantNonneg r b p x := by
  have hb0 : (b : ℚ) ≠ 0 := by exact_mod_cast (Nat.zero_lt_of_lt hb).ne'
  have hpos := lastPlace_pos (p := p) hb x
  have hpow : (b : ℚ) ^ Int.log b x = ((b ^ (p - 1) : ℕ) : ℤ) * lastPlace b p x := by
    rw [lastPlace, Int.cast_natCast, Nat.cast_pow, ← zpow_natCast, ← zpow_add₀ hb0]
    congr 1
    push_cast [Nat.cast_sub hp]
    ring
  have hle : (((b ^ (p - 1) : ℕ) : ℤ) : ℚ) ≤ x / lastPlace b p x := by
    rw [le_div_iff₀ hpos, ← hpow]
    exact Int.zpow_log_le_self hb hx
  have := r.mono hle
  rw [r.toInt_intCast] at this
  rw [hpow, significantNonneg]
  exact mul_le_mul_of_nonneg_right (by exact_mod_cast this) hpos.le

/-- Significant digits keep the order of values that are not negative. -/
theorem significantNonneg_mono (hb : 1 < b) (hp : 0 < p) {x y : ℚ} (hx : 0 ≤ x) (h : x ≤ y) :
    significantNonneg r b p x ≤ significantNonneg r b p y := by
  rcases hx.eq_or_lt with rfl | hx
  · have hzero : significantNonneg r b p 0 = 0 := by simp [significantNonneg]
    rw [hzero]
    exact significantNonneg_nonneg r hb h
  rcases (Int.log_mono_right (b := b) hx h).lt_or_eq with hlt | heq
  · -- a power of the base lies between the two
    have hb1 : (1 : ℚ) ≤ b := by exact_mod_cast hb.le
    calc significantNonneg r b p x
        ≤ (b : ℚ) ^ (Int.log b x + 1) := significantNonneg_le_zpow r hb
      _ ≤ (b : ℚ) ^ Int.log b y := zpow_le_zpow_right₀ hb1 (by omega)
      _ ≤ significantNonneg r b p y := zpow_le_significantNonneg r hb hp (hx.trans_le h)
  · have hpos := lastPlace_pos (p := p) hb y
    have hplace : lastPlace b p x = lastPlace b p y := by rw [lastPlace, heq, lastPlace]
    rw [significantNonneg, significantNonneg, hplace]
    have := r.mono (div_le_div_of_nonneg_right h hpos.le)
    exact mul_le_mul_of_nonneg_right (by exact_mod_cast this) hpos.le

/-- Significant digits keep the order. -/
theorem significant_mono (hb : 1 < b) (hp : 0 < p) : Monotone (significant r b p) := by
  intro x y h
  rw [significant, significant]
  split_ifs with hx hy hy
  · exact significantNonneg_mono r hb hp hx h
  · exact absurd (hx.trans h) hy
  · have := significantNonneg_nonneg r (p := p) hb (x := -x) (by linarith)
    have := significantNonneg_nonneg r (p := p) hb hy
    linarith
  · have := significantNonneg_mono r hb hp (x := -y) (y := -x) (by linarith) (by linarith)
    linarith

/-- A number of at most `p` digits is not changed. -/
theorem significant_exact (hb : 1 < b) {k : ℕ} {e : ℤ} (hk : k < b ^ p) :
    significant r b p (k * (b : ℚ) ^ e) = k * (b : ℚ) ^ e := by
  have hb0 : (b : ℚ) ≠ 0 := by exact_mod_cast (Nat.zero_lt_of_lt hb).ne'
  have hbpos : (0 : ℚ) < b := by exact_mod_cast Nat.zero_lt_of_lt hb
  set x : ℚ := k * (b : ℚ) ^ e with hx
  have hnonneg : 0 ≤ x := mul_nonneg (by positivity) (zpow_nonneg hbpos.le _)
  have hpos := lastPlace_pos (p := p) hb x
  rw [significant, if_pos hnonneg, significantNonneg]
  rcases Nat.eq_zero_or_pos k with rfl | hkpos
  · simp [hx]
  have hxpos : 0 < x := mul_pos (by exact_mod_cast hkpos) (zpow_pos hbpos _)
  have hlog : Int.log b x < p + e := by
    rw [← Int.lt_zpow_iff_log_lt hb hxpos, zpow_add₀ hb0, zpow_natCast, hx]
    exact mul_lt_mul_of_pos_right (by exact_mod_cast hk) (zpow_pos hbpos _)
  -- the last place divides `b ^ e`
  obtain ⟨d, hd⟩ : ∃ d : ℕ, e = d + (Int.log b x - p + 1) :=
    ⟨(e - (Int.log b x - p + 1)).toNat, by omega⟩
  have hint : x / lastPlace b p x = ((k * b ^ d : ℕ) : ℤ) := by
    rw [div_eq_iff hpos.ne', lastPlace, hx]
    nth_rewrite 1 [hd]
    rw [zpow_add₀ hb0, zpow_natCast]
    push_cast
    ring
  rw [hint, r.toInt_intCast, ← hint, div_mul_cancel₀ _ hpos.ne']

theorem significant_natCast (hb : 1 < b) {k : ℕ} (hk : k < b ^ p) :
    significant r b p k = k := by
  simpa using significant_exact r (e := 0) hb hk

/-- The error relative to a non-negative number. -/
theorem abs_significant_sub_le (hb : 1 < b) {x : ℚ} (hx : 0 ≤ x) :
    |significant r b p x - x| ≤ x * (b : ℚ) ^ (1 - p : ℤ) / 2 := by
  have hb0 : (b : ℚ) ≠ 0 := by exact_mod_cast (Nat.zero_lt_of_lt hb).ne'
  have hbpos : (0 : ℚ) < b := by exact_mod_cast Nat.zero_lt_of_lt hb
  have hpos := lastPlace_pos (p := p) hb x
  rw [significant, if_pos hx, significantNonneg]
  rcases hx.eq_or_lt with rfl | hxpos
  · simp
  have hplace : lastPlace b p x ≤ x * (b : ℚ) ^ (1 - p : ℤ) := by
    rw [lastPlace, sub_add_eq_add_sub, add_sub_assoc, zpow_add₀ hb0]
    exact mul_le_mul_of_nonneg_right (Int.zpow_log_le_self hb hxpos) (zpow_nonneg hbpos.le _)
  calc |r.toInt (x / lastPlace b p x) * lastPlace b p x - x|
      = |(r.toInt (x / lastPlace b p x) : ℚ) - x / lastPlace b p x| * lastPlace b p x := by
        rw [← abs_of_pos hpos, ← abs_mul, sub_mul, abs_of_pos hpos,
          div_mul_cancel₀ _ hpos.ne']
    _ ≤ 1 / 2 * lastPlace b p x := mul_le_mul_of_nonneg_right (r.near _) hpos.le
    _ ≤ x * (b : ℚ) ^ (1 - p : ℤ) / 2 := by linarith

end Significant

/-! ## Doubles -/

/-- The double nearest to a number. -/
def toDouble (x : ℚ) : ℚ :=
  significant halfEven 2 53 x

theorem toDouble_mono : Monotone toDouble :=
  significant_mono halfEven (by decide) (by decide)

theorem toDouble_natCast {n : ℕ} (h : n < 2 ^ 53) : toDouble n = n :=
  significant_natCast halfEven (by decide) h

theorem toDouble_nonneg {x : ℚ} (h : 0 ≤ x) : 0 ≤ toDouble x := by
  have := toDouble_mono h
  rwa [← Nat.cast_zero, toDouble_natCast (by positivity)] at this

theorem abs_toDouble_sub_le {x : ℚ} (h : 0 ≤ x) : |toDouble x - x| ≤ x / 2 ^ 53 := by
  refine (abs_significant_sub_le halfEven (by decide) h).trans (le_of_eq ?_)
  norm_num
  ring

/-- A whole number, as a double. -/
def numberOf (z : ℤ) : ℤ :=
  ⌊toDouble z⌋

theorem numberOf_mono : Monotone numberOf := fun _ _ h =>
  Int.floor_mono (toDouble_mono (by exact_mod_cast h))

theorem numberOf_natCast {n : ℕ} (h : n < 2 ^ 53) : numberOf n = n := by
  have := toDouble_natCast h
  rw [numberOf, Int.cast_natCast, this, Int.floor_natCast]

theorem numberOf_two_pow : numberOf (2 ^ 53 : ℕ) = (2 ^ 53 : ℕ) := by
  have : toDouble (2 ^ 53) = 2 ^ 53 := by
    simpa [toDouble] using significant_exact halfEven (b := 2) (p := 53) (k := 1) (e := 53)
      (by decide) (by norm_num)
  rw [numberOf, Int.cast_natCast, Nat.cast_pow, Nat.cast_ofNat, this]
  norm_num

/-- A double is never less than half of the number. -/
theorem half_le_numberOf {z : ℤ} (h : 0 ≤ z) : (z : ℚ) / 2 ≤ numberOf z := by
  obtain ⟨n, rfl⟩ := Int.eq_ofNat_of_zero_le h
  have hn : (0 : ℚ) ≤ n := by positivity
  rcases lt_or_ge n (2 ^ 53) with hsmall | hlarge
  · rw [numberOf_natCast hsmall, Int.cast_natCast]
    linarith
  · have hlarge' : (2 : ℚ) ^ 53 ≤ n := by exact_mod_cast hlarge
    have hclose := (abs_le.mp (abs_toDouble_sub_le hn)).1
    have hfloor : toDouble ((n : ℤ) : ℚ) - 1 < numberOf n := Int.sub_one_lt_floor _
    rw [Int.cast_natCast] at hfloor ⊢
    linarith

end Sails.Numeric
