import SailsProtocol.Numeric.Rounding

/-!
# Numbers within the range of the doubles

`toDouble` rounds to 53 digits at any exponent. The doubles end : below `2 ^ (-1022)` they
are the multiples of `2 ^ (-1074)`, and from `2 ^ 1024` on a number is infinite (`number`).
Infinity is the end itself, which compares with the doubles as infinity does.

`number_mono` : rounding stays monotone; `number_natCast` : small whole numbers are exact.
-/

namespace Sails.Numeric

/-- The least double of 53 digits. -/
def leastNormal : ℚ := 2 ^ (-1022 : ℤ)

/-- The least positive double. -/
def leastPositive : ℚ := 2 ^ (-1074 : ℤ)

/-- Rounding with a least positive double. -/
def toGradual (x : ℚ) : ℚ :=
  if |x| < leastNormal then roundEven (x / leastPositive) * leastPositive else toDouble x

/-- The number a decimal text is read as. -/
def number (x : ℚ) : ℚ :=
  max (-2 ^ 1024) (min (2 ^ 1024) (toGradual x))

theorem leastPositive_pos : 0 < leastPositive := zpow_pos (by norm_num) _

theorem leastNormal_pos : 0 < leastNormal := zpow_pos (by norm_num) _

theorem leastNormal_eq : leastNormal = ((2 ^ 52 : ℕ) : ℤ) * leastPositive := by
  rw [leastNormal, leastPositive, Int.cast_natCast, Nat.cast_pow, Nat.cast_ofNat, ← zpow_natCast,
    ← zpow_add₀ two_ne_zero]
  norm_num

theorem toDouble_leastNormal : toDouble leastNormal = leastNormal := by
  have h := significant_exact halfEven (b := 2) (p := 53) (k := 1) (e := -1022) (by decide)
    (by norm_num)
  simpa [toDouble, leastNormal] using h

theorem toDouble_neg_leastNormal : toDouble (-leastNormal) = -leastNormal := by
  have hneg : ¬ 0 ≤ -leastNormal := by
    have := leastNormal_pos
    linarith
  have h := toDouble_leastNormal
  rw [toDouble, significant, if_pos leastNormal_pos.le] at h
  rw [toDouble, significant, if_neg hneg, neg_neg, h]

/-- Gradual underflow keeps the order. -/
theorem toGradual_mono : Monotone toGradual := by
  intro x y h
  have hpos := leastPositive_pos
  have hgrid : ∀ {u : ℚ} {n : ℤ}, u ≤ n * leastPositive →
      roundEven (u / leastPositive) * leastPositive ≤ n * leastPositive := by
    intro u n hu
    have := halfEven.mono ((div_le_iff₀ hpos).mpr hu)
    rw [halfEven.toInt_intCast] at this
    exact mul_le_mul_of_nonneg_right (by exact_mod_cast this) hpos.le
  have hgrid' : ∀ {u : ℚ} {n : ℤ}, n * leastPositive ≤ u →
      n * leastPositive ≤ roundEven (u / leastPositive) * leastPositive := by
    intro u n hu
    have := halfEven.mono ((le_div_iff₀ hpos).mpr hu)
    rw [halfEven.toInt_intCast] at this
    exact mul_le_mul_of_nonneg_right (by exact_mod_cast this) hpos.le
  rw [toGradual, toGradual]
  split_ifs with hx hy hy
  · have := roundEven_mono (div_le_div_of_nonneg_right h hpos.le)
    exact mul_le_mul_of_nonneg_right (by exact_mod_cast this) hpos.le
  · -- the least normal double lies between the two
    have hlow : leastNormal ≤ y := by
      rcases le_abs.mp (not_lt.mp hy) with hle | hle
      · exact hle
      · have := (abs_lt.mp hx).1
        linarith
    have hdouble := toDouble_mono hlow
    rw [toDouble_leastNormal] at hdouble
    refine le_trans ?_ hdouble
    rw [leastNormal_eq]
    refine hgrid ?_
    rw [← leastNormal_eq]
    exact (abs_lt.mp hx).2.le
  · have hhigh : x ≤ -leastNormal := by
      rcases le_abs.mp (not_lt.mp hx) with hle | hle
      · have := (abs_lt.mp hy).2
        linarith
      · linarith
    have hdouble := toDouble_mono hhigh
    rw [toDouble_neg_leastNormal] at hdouble
    refine hdouble.trans ?_
    have hend : -leastNormal = ((-(2 ^ 52 : ℕ) : ℤ) : ℚ) * leastPositive := by
      rw [leastNormal_eq]
      push_cast
      ring
    rw [hend]
    refine hgrid' ?_
    rw [← hend]
    exact (abs_lt.mp hy).1.le
  · exact toDouble_mono h

theorem number_mono : Monotone number := fun _ _ h =>
  max_le_max le_rfl (min_le_min le_rfl (toGradual_mono h))

/-- A whole number below `2 ^ 53` is exact. -/
theorem number_natCast {n : ℕ} (h : n < 2 ^ 53) : number n = n := by
  have hgradual : toGradual n = n := by
    rcases Nat.eq_zero_or_pos n with rfl | hpos
    · have hzero : roundEven 0 = 0 := halfEven.toInt_zero
      rw [toGradual, Nat.cast_zero, abs_zero, if_pos leastNormal_pos, zero_div, hzero,
        Int.cast_zero, zero_mul]
    · have hone : leastNormal ≤ 1 := zpow_le_one_of_nonpos₀ (by norm_num) (by norm_num)
      have hn : (1 : ℚ) ≤ n := by exact_mod_cast hpos
      rw [toGradual, Nat.abs_cast, if_neg (not_lt.mpr (hone.trans hn)), toDouble_natCast h]
  have hlarge : (n : ℚ) ≤ 2 ^ 1024 := by
    have : (n : ℚ) < 2 ^ 53 := by exact_mod_cast h
    exact this.le.trans (pow_le_pow_right₀ (by norm_num) (by norm_num))
  have hlow : -2 ^ 1024 ≤ (n : ℚ) := by
    have hpow : (0 : ℚ) ≤ 2 ^ 1024 := by positivity
    exact (neg_nonpos.mpr hpow).trans n.cast_nonneg
  rw [number, hgradual, min_eq_right hlarge, max_eq_right hlow]

theorem number_zero : number 0 = 0 := by
  simpa using number_natCast (n := 0) (by positivity)

/-- A difference that is not positive does not become positive. -/
theorem number_sub_nonpos {x y : ℚ} (h : x ≤ y) : number (number x - number y) ≤ 0 := by
  have := number_mono (sub_nonpos.mpr (number_mono h))
  rwa [number_zero] at this

end Sails.Numeric
