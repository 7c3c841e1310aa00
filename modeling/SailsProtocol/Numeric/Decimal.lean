import Mathlib.Algebra.Order.Floor.Semifield
import Mathlib.Data.Nat.Cast.Field
import SailsProtocol.Numeric.Rounding

/-!
# Decimal arithmetic with twenty digits

A decimal type that computes every result exactly and then rounds it to twenty
significant digits, ties away from zero (`decimal`), and that cuts a number off after a
number of decimal places (`toDecimalPlaces`). Amounts of eight decimal places are whole
numbers of units (`ofUnits`), and their conversion to a double is `toUnits`.

* `times_mono`, `toDecimalPlaces_mono`, `toUnits_mono` : everything is monotone;
* `decimal_ofUnits`, `toUnits_ofUnits` : amounts below `2 ^ 53` units are exact;
* `product_units` : the product of two amounts of eight places, cut off after eight
  places, in units.
-/

namespace Sails.Numeric

/-- Twenty significant digits, ties away from zero. -/
def decimal (x : ℚ) : ℚ :=
  significant halfUp 10 20 x

/-- `times`, rounded to the precision. -/
def times (x y : ℚ) : ℚ := decimal (x * y)

/-- `dividedBy`, rounded to the precision. -/
def dividedBy (x y : ℚ) : ℚ := decimal (x / y)

/-- `plus`, rounded to the precision. -/
def plus (x y : ℚ) : ℚ := decimal (x + y)

/-- Towards zero. -/
def truncate (x : ℚ) : ℤ :=
  if 0 ≤ x then ⌊x⌋ else ⌈x⌉

/-- Cut off after `places` decimal places. -/
def toDecimalPlaces (places : ℕ) (x : ℚ) : ℚ :=
  truncate (x * 10 ^ places) / 10 ^ places

/-- The nearest integer, ties away from zero. -/
def toFixed (x : ℚ) : ℤ :=
  if 0 ≤ x then halfUp.toInt x else -halfUp.toInt (-x)

/-- A decimal column of eight places, ties away from zero. -/
def toColumn (x : ℚ) : ℚ := toFixed (x * 10 ^ 8) / 10 ^ 8

/-- An amount of eight decimal places, given in units of the last. -/
def ofUnits (n : ℕ) : ℚ := n / 10 ^ 8

/-- An amount in units of the eighth decimal place, as a double. -/
def toUnits (x : ℚ) : ℤ :=
  numberOf (toFixed (times x (10 ^ 8)))

/-! ## Monotonicity -/

theorem decimal_mono : Monotone decimal :=
  significant_mono halfUp (by decide) (by decide)

theorem times_mono {x y z : ℚ} (hz : 0 ≤ z) (h : x ≤ y) : times x z ≤ times y z :=
  decimal_mono (mul_le_mul_of_nonneg_right h hz)

/-- Truncation keeps the order. -/
theorem truncate_mono : Monotone truncate := by
  intro x y h
  rw [truncate, truncate]
  split_ifs with hx hy hy
  · exact Int.floor_mono h
  · exact absurd (hx.trans h) hy
  · have hx' : ⌈x⌉ ≤ 0 := Int.ceil_le.mpr (by push_cast; linarith)
    exact hx'.trans (Int.floor_nonneg.mpr hy)
  · exact Int.ceil_mono h

theorem toDecimalPlaces_mono (places : ℕ) : Monotone (toDecimalPlaces places) := by
  intro x y h
  have hpow : (0 : ℚ) < 10 ^ places := by positivity
  have := truncate_mono (mul_le_mul_of_nonneg_right h hpow.le)
  exact div_le_div_of_nonneg_right (by exact_mod_cast this) hpow.le

/-- Rounding to decimal places keeps the order. -/
theorem toFixed_mono : Monotone toFixed := by
  intro x y h
  rw [toFixed, toFixed]
  split_ifs with hx hy hy
  · exact halfUp.mono h
  · exact absurd (hx.trans h) hy
  · have := halfUp.toInt_nonneg (y := -x) (by linarith)
    have := halfUp.toInt_nonneg hy
    omega
  · have := halfUp.mono (show -y ≤ -x by linarith)
    omega

theorem toUnits_mono : Monotone toUnits := by
  intro x y h
  exact numberOf_mono (toFixed_mono (times_mono (by positivity : (0 : ℚ) ≤ 10 ^ 8) h))

/-! ## Exact amounts -/

theorem decimal_exact {k : ℕ} {e : ℤ} (hk : k < 10 ^ 20) :
    decimal (k * (10 : ℚ) ^ e) = k * (10 : ℚ) ^ e := by
  simpa [decimal] using significant_exact halfUp (b := 10) (e := e) (by decide) hk

theorem decimal_natCast {n : ℕ} (h : n < 10 ^ 20) : decimal n = n := by
  simpa using decimal_exact (e := 0) h

theorem decimal_ofUnits {n : ℕ} (h : n < 10 ^ 20) : decimal (ofUnits n) = ofUnits n := by
  have hpow : ofUnits n = n * (10 : ℚ) ^ (-8 : ℤ) := by
    rw [ofUnits, zpow_neg, div_eq_mul_inv]
    norm_num
  rw [hpow, decimal_exact h]

/-- Scaling by a power of ten does not matter to the digits. -/
theorem decimal_div_pow (x : ℚ) (k : ℕ) (hx : 0 ≤ x) :
    decimal (x / 10 ^ k) = decimal x / 10 ^ k := by
  rcases hx.eq_or_lt with rfl | hpos
  · have : decimal 0 = 0 := by exact_mod_cast decimal_natCast (n := 0) (by norm_num)
    simp [this]
  have hscaled : 0 < x / 10 ^ k := by positivity
  have hlog : Int.log 10 (x / 10 ^ k) = Int.log 10 x - k := by
    have hcast : ((10 : ℕ) : ℚ) = 10 := by norm_num
    refine le_antisymm ?_ ?_
    · have h := Int.lt_zpow_succ_log_self (b := 10) (by decide) x
      refine Int.lt_add_one_iff.mp ((Int.lt_zpow_iff_log_lt (by decide) hscaled).mp ?_)
      rw [hcast] at h ⊢
      rw [show Int.log 10 x - (k : ℤ) + 1 = Int.log 10 x + 1 - k by ring,
        zpow_sub₀ (by norm_num), zpow_natCast]
      exact div_lt_div_of_pos_right h (by positivity)
    · have h := Int.zpow_log_le_self (b := 10) (by decide) hpos
      refine (Int.zpow_le_iff_le_log (by decide) hscaled).mp ?_
      rw [hcast] at h ⊢
      rw [zpow_sub₀ (by norm_num), zpow_natCast]
      exact div_le_div_of_nonneg_right h (by positivity)
  have hplace : lastPlace 10 20 (x / 10 ^ k) = lastPlace 10 20 x / 10 ^ k := by
    rw [lastPlace, lastPlace, hlog, ← zpow_natCast, Nat.cast_ofNat, ← zpow_sub₀ (by norm_num)]
    congr 1
    ring
  rw [decimal, decimal, significant, significant, if_pos hscaled.le, if_pos hx,
    significantNonneg, significantNonneg, hplace, div_div_div_cancel_right₀ (by positivity)]
  ring

theorem toFixed_natCast (n : ℕ) : toFixed n = n := by
  rw [toFixed, if_pos (by positivity)]
  exact_mod_cast halfUp.toInt_intCast n

theorem times_ofUnits_pow {n : ℕ} (h : n < 10 ^ 20) : times (ofUnits n) (10 ^ 8) = n := by
  rw [times, ofUnits, div_mul_cancel₀ _ (by positivity), decimal_natCast h]

theorem toUnits_ofUnits {n : ℕ} (h : n < 2 ^ 53) : toUnits (ofUnits n) = n := by
  rw [toUnits, times_ofUnits_pow (h.trans (by norm_num)), toFixed_natCast, numberOf_natCast h]

/-- An amount that is small as a double is one of that many units. -/
theorem lt_of_toUnits_lt {n : ℕ} (h : toUnits (ofUnits n) < 2 ^ 53) : n < 2 ^ 53 := by
  by_contra hle
  have hmono : toUnits (ofUnits (2 ^ 53)) ≤ toUnits (ofUnits n) := by
    refine toUnits_mono (div_le_div_of_nonneg_right ?_ (by positivity))
    exact_mod_cast not_lt.mp hle
  have hexact : toUnits (ofUnits (2 ^ 53)) = 2 ^ 53 := by
    rw [toUnits, times_ofUnits_pow (by norm_num), toFixed_natCast]
    exact numberOf_two_pow
  rw [hexact] at hmono
  exact absurd h (not_lt.mpr hmono)

/-! ## Values of a column -/

theorem toFixed_neg (x : ℚ) : toFixed (-x) = -toFixed x := by
  rw [toFixed, toFixed]
  rcases lt_trichotomy x 0 with hlt | rfl | hgt
  · rw [if_pos (by linarith), if_neg (by linarith), neg_neg]
  · simp
  · rw [if_neg (by linarith), if_pos hgt.le, neg_neg]

theorem toFixed_intCast (n : ℤ) : toFixed (n : ℚ) = n := by
  rw [toFixed]
  split_ifs with h
  · exact halfUp.toInt_intCast n
  · have := halfUp.toInt_intCast (-n)
    push_cast at this
    omega

theorem toColumn_neg (x : ℚ) : toColumn (-x) = -toColumn x := by
  rw [toColumn, toColumn, neg_mul, toFixed_neg]
  push_cast
  ring

theorem toColumn_toColumn (x : ℚ) : toColumn (toColumn x) = toColumn x := by
  have hscaled : toColumn x * 10 ^ 8 = (toFixed (x * 10 ^ 8) : ℚ) := by
    rw [toColumn]
    field_simp
  rw [toColumn, hscaled, toFixed_intCast, ← toColumn]

theorem toColumn_intUnits (k : ℤ) : toColumn (k / 10 ^ 8) = k / 10 ^ 8 := by
  rw [toColumn, div_mul_cancel₀ _ (by positivity), toFixed_intCast]

theorem toColumn_ofUnits (n : ℕ) : toColumn (ofUnits n) = ofUnits n := by
  simpa [ofUnits] using toColumn_intUnits n

theorem toColumn_natCast (n : ℕ) : toColumn n = n := by
  have h := toColumn_ofUnits (n * 10 ^ 8)
  have hunits : ofUnits (n * 10 ^ 8) = n := by
    rw [ofUnits, Nat.cast_mul, Nat.cast_pow, Nat.cast_ofNat, mul_div_cancel_right₀ _ (by positivity)]
  rwa [hunits] at h

/-! ## Products -/

/-- The product of two amounts, cut off after eight places, in units. -/
def productUnits (n m : ℕ) : ℕ :=
  ⌊decimal (n * m : ℕ) / 10 ^ 8⌋₊

theorem decimal_nonneg {x : ℚ} (h : 0 ≤ x) : 0 ≤ decimal x := by
  have := decimal_mono h
  have hzero : decimal 0 = 0 := by exact_mod_cast decimal_natCast (n := 0) (by norm_num)
  rwa [hzero] at this

/-- The product of two amounts in units. -/
theorem product_units (n m : ℕ) :
    toDecimalPlaces 8 (times (ofUnits n) (ofUnits m)) = ofUnits (productUnits n m) := by
  have hscale : times (ofUnits n) (ofUnits m) = decimal (n * m : ℕ) / 10 ^ 16 := by
    rw [times, ← decimal_div_pow _ _ (by positivity), ofUnits, ofUnits]
    congr 1
    push_cast
    field_simp
  have hnonneg : 0 ≤ decimal (n * m : ℕ) := decimal_nonneg (by positivity)
  have hunits : decimal (n * m : ℕ) / 10 ^ 16 * 10 ^ 8 = decimal (n * m : ℕ) / 10 ^ 8 := by
    field_simp
  rw [toDecimalPlaces, hscale, hunits, truncate, if_pos (by positivity), ofUnits, productUnits,
    ← natCast_floor_eq_intCast_floor (by positivity)]

/-- Nothing is lost as long as the product has twenty digits. -/
theorem productUnits_eq {n m : ℕ} (h : n * m < 10 ^ 20) : productUnits n m = n * m / 10 ^ 8 := by
  rw [productUnits, decimal_natCast h]
  exact_mod_cast Nat.floor_div_eq_div (K := ℚ) (n * m) (10 ^ 8)

/-- Rounding to twenty digits carries into the units : what the cut-off drops is within
half of the last of the twenty digits of one more unit. -/
def Carries (product : ℕ) : Prop :=
  10 ^ 20 ≤ product ∧ 10 ^ 8 ≤ product % 10 ^ 8 + 10 ^ (Nat.log 10 product - 19) / 2

instance (product : ℕ) : Decidable (Carries product) :=
  inferInstanceAs (Decidable (_ ∧ _))

/-- Rounding of a product of 21 to 27 digits. -/
theorem decimal_natCast_of_le {product d : ℕ} (hd : 1 ≤ d)
    (hlog : Nat.log 10 product = d + 19) :
    decimal product = ((product + 10 ^ d / 2) / 10 ^ d * 10 ^ d : ℕ) := by
  have hplace : lastPlace 10 20 (product : ℚ) = 10 ^ d := by
    rw [lastPlace, Int.log_natCast, hlog, ← zpow_natCast]
    push_cast
    congr 1
    ring
  have heven : ((10 ^ d / 2 : ℕ) : ℚ) = 10 ^ d / 2 := by
    rw [Nat.cast_div (dvd_pow (by decide) (by omega)) (by norm_num)]
    push_cast
    rfl
  have hround : (product : ℚ) / 10 ^ d + 1 / 2 =
      ((product + 10 ^ d / 2 : ℕ) : ℚ) / ((10 ^ d : ℕ) : ℚ) := by
    rw [Nat.cast_add, heven]
    push_cast
    field_simp
  rw [decimal, significant, if_pos (by positivity), significantNonneg, hplace]
  simp only [halfUp]
  rw [hround, ← natCast_floor_eq_intCast_floor (by positivity), Nat.floor_div_eq_div]
  push_cast
  rfl

/-- A product is rounded down right unless the rounding carries. -/
theorem floor_decimal_eq_iff {product : ℕ} (h : product < 10 ^ 28) :
    ⌊decimal product / 10 ^ 8⌋₊ = product / 10 ^ 8 ↔ ¬Carries product := by
  have hfloor : ∀ k : ℕ, ⌊(k : ℚ) / 10 ^ 8⌋₊ = k / 10 ^ 8 := fun k => by
    exact_mod_cast Nat.floor_div_eq_div (K := ℚ) k (10 ^ 8)
  rcases lt_or_ge product (10 ^ 20) with hsmall | hlarge
  · rw [decimal_natCast hsmall, hfloor]
    exact iff_of_true rfl fun hc => absurd hc.1 (not_le.mpr hsmall)
  have hpos : product ≠ 0 := by omega
  have hlow : 20 ≤ Nat.log 10 product :=
    (Nat.le_log_iff_pow_le (by decide) hpos).mpr hlarge
  have hhigh : Nat.log 10 product < 28 :=
    (Nat.log_lt_iff_lt_pow (by decide) hpos).mpr h
  obtain ⟨d, hd⟩ : ∃ d, Nat.log 10 product = d + 19 := ⟨_, (Nat.sub_add_cancel (by omega)).symm⟩
  have hsplit : (10 : ℕ) ^ 8 = 10 ^ d * 10 ^ (8 - d) := by
    rw [← pow_add]
    congr 1
    omega
  rw [decimal_natCast_of_le (by omega) hd, hfloor, hsplit, mul_comm _ (10 ^ d),
    Nat.mul_div_mul_left _ _ (by positivity), Nat.div_div_eq_div_mul, ← hsplit, Carries, hd,
    Nat.add_sub_cancel]
  simp only [hlarge, true_and]
  have := Nat.div_add_mod product (10 ^ 8)
  have := Nat.mod_lt product (by norm_num : 0 < 10 ^ 8)
  have : 0 < 10 ^ d := by positivity
  rw [Nat.div_eq_iff (by positivity)]
  omega

/-- A whole number stays one. -/
theorem decimal_natCast_whole (n : ℕ) : ∃ k : ℕ, decimal n = k := by
  rcases lt_or_ge n (10 ^ 20) with hsmall | hlarge
  · exact ⟨n, decimal_natCast hsmall⟩
  · have hlog : 20 ≤ Nat.log 10 n := (Nat.le_log_iff_pow_le (by decide) (by omega)).mpr hlarge
    obtain ⟨d, hd⟩ : ∃ d, Nat.log 10 n = d + 19 := ⟨_, (Nat.sub_add_cancel (by omega)).symm⟩
    exact ⟨_, decimal_natCast_of_le (by omega) hd⟩

/-! ## Coarse bounds -/

theorem abs_decimal_sub_le {x : ℚ} (h : 0 ≤ x) : |decimal x - x| ≤ x / 2 := by
  refine (abs_significant_sub_le halfUp (by decide) h).trans ?_
  norm_num
  linarith

theorem decimal_le_double {x : ℚ} (h : 0 ≤ x) : decimal x ≤ 2 * x := by
  linarith [(abs_le.mp (abs_decimal_sub_le h)).2]

/-- The conversion to a double loses less than three quarters of an amount. -/
theorem quarter_le_toUnits (n : ℕ) : (n : ℚ) / 4 ≤ toUnits (ofUnits n) := by
  have hn : (0 : ℚ) ≤ n := by positivity
  obtain ⟨k, hk⟩ := decimal_natCast_whole n
  have hhalf : (n : ℚ) / 2 ≤ k := by
    rw [← hk]
    linarith [(abs_le.mp (abs_decimal_sub_le hn)).1]
  have htimes : times (ofUnits n) (10 ^ 8) = k := by
    rw [times, ofUnits, div_mul_cancel₀ _ (by positivity), hk]
  have hnumber := half_le_numberOf (z := k) (by positivity)
  rw [toUnits, htimes, toFixed_natCast]
  rw [Int.cast_natCast] at hnumber
  linarith

theorem productUnits_mono {n n' m : ℕ} (h : n ≤ n') : productUnits n m ≤ productUnits n' m := by
  refine Nat.floor_mono (div_le_div_of_nonneg_right (decimal_mono ?_) (by positivity))
  exact_mod_cast Nat.mul_le_mul_right m h

end Sails.Numeric
