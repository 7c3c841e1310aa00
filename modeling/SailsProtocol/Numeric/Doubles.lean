import SailsProtocol.Numeric.Decimal

/-!
# Whole numbers as doubles

A whole number of more than 53 binary digits loses its last digits when it becomes a double.
`numberOf_of_log` computes the double in whole numbers, `numberOf_idem` says that a double
stays what it is, and `numberOf_near` that numbers close to a large double become it.

`toUnits_product_eq_iff` : when the product of two amounts, computed with twenty digits, cut
off and converted to a double, is the exact product cut off. `toDouble_half` : half of a double
is a double.
-/

namespace Sails.Numeric

/-! ## The double of a whole number -/

/-- `n / 2 ^ d`, rounded to the nearest whole number, ties to even. -/
def roundQuotient (n d : ℕ) : ℕ :=
  if 2 * (n % 2 ^ d) < 2 ^ d then n / 2 ^ d
  else if 2 ^ d < 2 * (n % 2 ^ d) then n / 2 ^ d + 1
  else n / 2 ^ d + n / 2 ^ d % 2

/-- Half to even of a quotient by a power of two. -/
theorem roundEven_div (n d : ℕ) : roundEven ((n : ℚ) / 2 ^ d) = roundQuotient n d := by
  have hpow : (0 : ℚ) < 2 ^ d := by positivity
  have hfloor : ⌊(n : ℚ) / 2 ^ d⌋ = ((n / 2 ^ d : ℕ) : ℤ) := by
    have hnat : ⌊(n : ℚ) / 2 ^ d⌋₊ = n / 2 ^ d := by
      exact_mod_cast Nat.floor_div_eq_div (K := ℚ) n (2 ^ d)
    rw [← Int.natCast_floor_eq_floor (by positivity), hnat]
  have hsplit : (n : ℚ) = 2 ^ d * (n / 2 ^ d : ℕ) + (n % 2 ^ d : ℕ) := by
    exact_mod_cast (Nat.div_add_mod n (2 ^ d)).symm
  have hrest : (n : ℚ) / 2 ^ d - ((n / 2 ^ d : ℕ) : ℤ) = (n % 2 ^ d : ℕ) / 2 ^ d := by
    rw [Int.cast_natCast]
    nth_rewrite 1 [hsplit]
    field_simp
    ring
  have hlt : ((n % 2 ^ d : ℕ) : ℚ) / 2 ^ d < 1 / 2 ↔ 2 * (n % 2 ^ d) < 2 ^ d := by
    rw [div_lt_div_iff₀ hpow (by norm_num), ← @Nat.cast_lt ℚ]
    push_cast
    constructor <;> intro h <;> linarith
  have hgt : 1 / 2 < ((n % 2 ^ d : ℕ) : ℚ) / 2 ^ d ↔ 2 ^ d < 2 * (n % 2 ^ d) := by
    rw [div_lt_div_iff₀ (by norm_num) hpow, ← @Nat.cast_lt ℚ]
    push_cast
    constructor <;> intro h <;> linarith
  rw [roundEven, hfloor, hrest, roundQuotient]
  simp only [hlt, hgt]
  split_ifs <;> push_cast <;> rfl

/-- The double of a whole number of more than 53 digits. -/
theorem numberOf_of_log {n d : ℕ} (h : Nat.log 2 n = d + 52) :
    numberOf n = (roundQuotient n d * 2 ^ d : ℕ) := by
  have hplace : lastPlace 2 53 (n : ℚ) = 2 ^ d := by
    rw [lastPlace, Int.log_natCast, h, ← zpow_natCast]
    push_cast
    congr 1
    ring
  have hdouble : toDouble n = (roundQuotient n d * 2 ^ d : ℕ) := by
    rw [toDouble, significant, if_pos (by positivity), significantNonneg, hplace]
    simp only [halfEven]
    rw [roundEven_div]
    push_cast
    rfl
  rw [numberOf, Int.cast_natCast, hdouble, Int.floor_natCast]

/-- A number of 53 digits with zeros behind is a double. -/
theorem numberOf_mul_pow {k e : ℕ} (hk : k < 2 ^ 53) :
    numberOf (k * 2 ^ e : ℕ) = (k * 2 ^ e : ℕ) := by
  have h := significant_exact halfEven (b := 2) (p := 53) (k := k) (e := e) (by decide) hk
  have hdouble : toDouble (k * 2 ^ e : ℕ) = (k * 2 ^ e : ℕ) := by
    rw [toDouble]
    push_cast at h ⊢
    exact_mod_cast h
  rw [numberOf, Int.cast_natCast, hdouble, Int.floor_natCast]

/-- The rounded significand has 53 digits, or is the next power of two. -/
theorem roundQuotient_bounds {n d : ℕ} (h : Nat.log 2 n = d + 52) :
    2 ^ 52 ≤ n / 2 ^ d ∧ n / 2 ^ d < 2 ^ 53 ∧ roundQuotient n d ≤ 2 ^ 53 := by
  have hne : n ≠ 0 := by
    rintro rfl
    simp at h
  have hlow : 2 ^ (d + 52) ≤ n := h ▸ Nat.pow_log_le_self 2 hne
  have hhigh : n < 2 ^ (d + 53) := by
    have := Nat.lt_pow_succ_log_self (b := 2) (by decide) n
    rwa [h] at this
  have hle : 2 ^ 52 ≤ n / 2 ^ d := by
    rw [Nat.le_div_iff_mul_le (by positivity), ← pow_add, add_comm]
    exact hlow
  have hlt : n / 2 ^ d < 2 ^ 53 := by
    rw [Nat.div_lt_iff_lt_mul (by positivity), ← pow_add, add_comm]
    exact hhigh
  refine ⟨hle, hlt, ?_⟩
  rw [roundQuotient]
  split_ifs <;> omega

/-- A double stays what it is. -/
theorem numberOf_idem (n : ℕ) : numberOf (numberOf n) = numberOf n := by
  rcases lt_or_ge n (2 ^ 53) with hsmall | hlarge
  · rw [numberOf_natCast hsmall, numberOf_natCast hsmall]
  · have hlog : 53 ≤ Nat.log 2 n := (Nat.le_log_iff_pow_le (by decide) (by omega)).mpr hlarge
    obtain ⟨d, hd⟩ : ∃ d, Nat.log 2 n = d + 52 := ⟨_, (Nat.sub_add_cancel (by omega)).symm⟩
    rw [numberOf_of_log hd]
    rcases (roundQuotient_bounds hd).2.2.lt_or_eq with hlt | heq
    · exact numberOf_mul_pow hlt
    · have hpow : roundQuotient n d * 2 ^ d = 1 * 2 ^ (53 + d) := by rw [heq, pow_add, one_mul]
      rw [hpow]
      exact numberOf_mul_pow (by norm_num)

/-- A large number that is a double is 53 binary digits and zeros. -/
theorem digits_of_numberOf_eq {n : ℕ} (hlarge : 2 ^ 52 ≤ n) (h : numberOf n = n) :
    ∃ k e, n = k * 2 ^ e ∧ 2 ^ 52 ≤ k ∧ k < 2 ^ 53 := by
  have hlog : 52 ≤ Nat.log 2 n := (Nat.le_log_iff_pow_le (by decide) (by omega)).mpr hlarge
  obtain ⟨d, hd⟩ : ∃ d, Nat.log 2 n = d + 52 := ⟨_, (Nat.sub_add_cancel hlog).symm⟩
  obtain ⟨hlow, hhigh, -⟩ := roundQuotient_bounds hd
  rw [numberOf_of_log hd] at h
  have hdvd : 2 ^ d ∣ n := ⟨roundQuotient n d, by rw [mul_comm]; exact_mod_cast h.symm⟩
  exact ⟨n / 2 ^ d, d, (Nat.div_mul_cancel hdvd).symm, hlow, hhigh⟩

/-- Numbers close to a double become it. Below it they must be twice as close, for the
doubles may lie twice as dense there. -/
theorem numberOf_near {k e n : ℕ} (hlow : 2 ^ 52 ≤ k) (hhigh : k < 2 ^ 53)
    (habove : 2 * n < 2 * (k * 2 ^ e) + 2 ^ e) (hbelow : 4 * (k * 2 ^ e) < 4 * n + 2 ^ e) :
    numberOf n = (k * 2 ^ e : ℕ) := by
  have hpos : 0 < 2 ^ e := by positivity
  have hne : n ≠ 0 := by
    rintro rfl
    nlinarith
  rcases le_or_gt (2 ^ 52 * 2 ^ e) n with hsame | hless
  · -- in the range of the double, where the spacing is `2 ^ e`
    have hupper : n < 2 ^ 53 * 2 ^ e := by nlinarith
    have hlog : Nat.log 2 n = e + 52 := by
      rw [Nat.log_eq_iff (.inr ⟨by decide, hne⟩)]
      constructor
      · rwa [pow_add, mul_comm]
      · rwa [add_assoc, pow_add, mul_comm]
    rw [numberOf_of_log hlog]
    have hround : roundQuotient n e = k := by
      rcases le_or_gt (k * 2 ^ e) n with hge | hlt
      · have hdiv : n / 2 ^ e = k := by
          rw [Nat.div_eq_iff hpos]
          omega
        have hmod := Nat.div_add_mod n (2 ^ e)
        rw [hdiv] at hmod
        rw [roundQuotient, if_pos (by nlinarith), hdiv]
      · obtain ⟨j, rfl⟩ : ∃ j, k = j + 1 := ⟨k - 1, by omega⟩
        rw [add_mul, one_mul] at hlt hbelow
        have hdiv : n / 2 ^ e = j := by
          rw [Nat.div_eq_iff hpos]
          omega
        have hmod := Nat.div_add_mod n (2 ^ e)
        rw [hdiv] at hmod
        rw [roundQuotient, if_neg (by nlinarith), if_pos (by nlinarith), hdiv]
    rw [hround]
  · -- just below a power of two
    have hk : k = 2 ^ 52 := by
      by_contra hk
      have : 2 ^ 52 + 1 ≤ k := by omega
      nlinarith
    subst hk
    obtain ⟨d, rfl⟩ : ∃ d, e = d + 1 := by
      cases e with
      | zero => simp at hless hbelow; omega
      | succ d => exact ⟨d, rfl⟩
    have hpos' : 0 < 2 ^ d := by positivity
    rw [pow_succ 2 d] at hless hbelow
    norm_num at hless hbelow
    have hlog : Nat.log 2 n = d + 52 := by
      rw [Nat.log_eq_iff (.inr ⟨by decide, hne⟩), pow_add, add_assoc, pow_add]
      norm_num
      omega
    rw [numberOf_of_log hlog]
    have hdiv : n / 2 ^ d = 2 ^ 53 - 1 := by
      rw [Nat.div_eq_iff hpos']
      norm_num
      omega
    have hmod := Nat.div_add_mod n (2 ^ d)
    rw [hdiv] at hmod
    have hround : roundQuotient n d = 2 ^ 53 := by
      norm_num at hmod
      rw [roundQuotient, if_neg (by omega), if_pos (by omega), hdiv]
      norm_num
    rw [hround, pow_succ]
    norm_num
    ring

/-- Between `2 ^ 53` and `2 ^ 54` the doubles are the even numbers. -/
theorem numberOf_succ_of_even {j : ℕ} (hlow : 2 ^ 52 ≤ j) (hhigh : j < 2 ^ 53) :
    numberOf (2 * j + 1 : ℕ) = (2 * (j + j % 2) : ℕ) := by
  have hlog : Nat.log 2 (2 * j + 1) = 1 + 52 := by
    rw [Nat.log_eq_iff (.inr ⟨by decide, by omega⟩)]
    norm_num
    omega
  rw [numberOf_of_log hlog, roundQuotient]
  have hdiv : (2 * j + 1) / 2 ^ 1 = j := by omega
  have hmod : (2 * j + 1) % 2 ^ 1 = 1 := by omega
  rw [hdiv, hmod, if_neg (by norm_num), if_neg (by norm_num), mul_comm]
  norm_num

/-! ## Products of amounts -/

/-- The cut-off of a product of 21 to 28 digits. -/
theorem productUnits_of_le {n m : ℕ} (hlow : 10 ^ 20 ≤ n * m) (hhigh : n * m < 10 ^ 28) :
    productUnits n m = (n * m + 10 ^ (Nat.log 10 (n * m) - 19) / 2) / 10 ^ 8 := by
  set product := n * m
  have hpos : product ≠ 0 := by omega
  have hlog : 20 ≤ Nat.log 10 product := (Nat.le_log_iff_pow_le (by decide) hpos).mpr hlow
  have hlog' : Nat.log 10 product < 28 := (Nat.log_lt_iff_lt_pow (by decide) hpos).mpr hhigh
  obtain ⟨d, hd⟩ : ∃ d, Nat.log 10 product = d + 19 := ⟨_, (Nat.sub_add_cancel (by omega)).symm⟩
  have hsplit : (10 : ℕ) ^ 8 = 10 ^ d * 10 ^ (8 - d) := by
    rw [← pow_add]
    congr 1
    omega
  have hfloor : ∀ k : ℕ, ⌊(k : ℚ) / 10 ^ 8⌋₊ = k / 10 ^ 8 := fun k => by
    exact_mod_cast Nat.floor_div_eq_div (K := ℚ) k (10 ^ 8)
  rw [productUnits, decimal_natCast_of_le (by omega) hd, hfloor, hd, Nat.add_sub_cancel, hsplit,
    mul_comm _ (10 ^ d), Nat.mul_div_mul_left _ _ (by positivity), Nat.div_div_eq_div_mul]

/-- Below 29 digits the cut-off is exact, or one unit more where it carries. -/
theorem productUnits_eq_add {n m : ℕ} (h : n * m < 10 ^ 28) :
    productUnits n m = n * m / 10 ^ 8 + if Carries (n * m) then 1 else 0 := by
  rcases lt_or_ge (n * m) (10 ^ 20) with hsmall | hlarge
  · rw [if_neg fun hc => absurd hc.1 (not_le.mpr hsmall), productUnits_eq hsmall, add_zero]
  · have hexp : 10 ^ (Nat.log 10 (n * m) - 19) ≤ 10 ^ 8 := by
      have : Nat.log 10 (n * m) < 28 := (Nat.log_lt_iff_lt_pow (by decide) (by omega)).mpr h
      exact Nat.pow_le_pow_right (by decide) (by omega)
    have hcarries : Carries (n * m) ↔
        10 ^ 8 ≤ n * m % 10 ^ 8 + 10 ^ (Nat.log 10 (n * m) - 19) / 2 := by
      simp only [Carries, hlarge, true_and]
    rw [productUnits_of_le hlarge h]
    simp only [hcarries]
    generalize 10 ^ (Nat.log 10 (n * m) - 19) = place at *
    split_ifs <;> omega

/-- From 29 digits on the cut-off is the rounding itself, close to the exact product. -/
theorem productUnits_of_ge {n m : ℕ} (h : 10 ^ 28 ≤ n * m) :
    ∃ k d, productUnits n m = k * 10 ^ d ∧ k ≤ 10 ^ 20 ∧ 10 ^ 19 * 10 ^ d ≤ n * m / 10 ^ 8 ∧
      productUnits n m ≤ n * m / 10 ^ 8 + 10 ^ d ∧ n * m / 10 ^ 8 ≤ productUnits n m + 10 ^ d := by
  set product := n * m
  have hpos : product ≠ 0 := by omega
  have hlog : 28 ≤ Nat.log 10 product := (Nat.le_log_iff_pow_le (by decide) hpos).mpr h
  obtain ⟨d, hd⟩ : ∃ d, Nat.log 10 product = d + 8 + 19 := ⟨_, (Nat.sub_add_cancel (by omega)).symm⟩
  have hlow : 10 ^ (d + 8 + 19) ≤ product := hd ▸ Nat.pow_log_le_self 10 hpos
  have hhigh : product < 10 ^ (d + 8 + 19 + 1) := hd ▸ Nat.lt_pow_succ_log_self (by decide) product
  have hunits : productUnits n m = (product + 10 ^ (d + 8) / 2) / 10 ^ (d + 8) * 10 ^ d := by
    have hfloor : ∀ k : ℕ, ⌊(k : ℚ) / 10 ^ 8⌋₊ = k / 10 ^ 8 := fun k => by
      exact_mod_cast Nat.floor_div_eq_div (K := ℚ) k (10 ^ 8)
    rw [productUnits, decimal_natCast_of_le (by omega) hd, hfloor, pow_add 10 d 8, ← mul_assoc,
      Nat.mul_div_cancel _ (by positivity)]
  rw [pow_add, pow_add] at hlow
  rw [pow_add, pow_add, pow_add] at hhigh
  rw [pow_add] at hunits
  have hpow : 0 < 10 ^ d := by positivity
  refine ⟨_, d, hunits, ?_, ?_⟩
  · refine Nat.le_of_lt_succ ((Nat.div_lt_iff_lt_mul (by positivity)).mpr ?_)
    generalize (10 : ℕ) ^ d = u at *
    omega
  -- in units of the eighth place the rounding is off by half of its last digit
  have hdiv := Nat.div_add_mod (product + 10 ^ d * 10 ^ 8 / 2) (10 ^ d * 10 ^ 8)
  have hmod := Nat.mod_lt (product + 10 ^ d * 10 ^ 8 / 2)
    (Nat.mul_pos hpow (by norm_num : 0 < 10 ^ 8))
  have hscale : 10 ^ d * 10 ^ 8 * ((product + 10 ^ d * 10 ^ 8 / 2) / (10 ^ d * 10 ^ 8)) =
      productUnits n m * 10 ^ 8 := by
    rw [hunits]
    ring
  rw [hscale] at hdiv
  generalize (10 : ℕ) ^ d = u at *
  omega

/-- The cut-off has at most twenty digits before its zeros, so it is not rounded again. -/
theorem toUnits_productUnits (n m : ℕ) :
    toUnits (ofUnits (productUnits n m)) = numberOf (productUnits n m) := by
  have hexact : ∀ k d : ℕ, k ≤ 10 ^ 20 → decimal (k * 10 ^ d : ℕ) = (k * 10 ^ d : ℕ) := by
    intro k d hk
    rcases hk.lt_or_eq with hlt | rfl
    · have := decimal_exact (k := k) (e := d) hlt
      push_cast at this ⊢
      exact_mod_cast this
    · have := decimal_exact (k := 1) (e := (20 + d : ℕ)) (by norm_num)
      rw [zpow_natCast, pow_add, Nat.cast_one, one_mul] at this
      rw [Nat.cast_mul, Nat.cast_pow, Nat.cast_pow, Nat.cast_ofNat]
      exact this
  have hdecimal : decimal (productUnits n m : ℕ) = productUnits n m := by
    rcases lt_or_ge (n * m) (10 ^ 28) with hsmall | hlarge
    · have hle : productUnits n m ≤ 10 ^ 20 := by
        rw [productUnits_eq_add hsmall]
        split_ifs <;> omega
      simpa using hexact _ 0 hle
    · obtain ⟨k, d, hunits, hk, -⟩ := productUnits_of_ge hlarge
      rw [hunits]
      exact hexact k d hk
  rw [toUnits, times, ofUnits, div_mul_cancel₀ _ (by positivity), hdecimal, toFixed_natCast]

/-- The product computed with twenty digits, cut off at the unit and converted to a double is
the exact product cut off exactly when this is a double and the rounding does not carry. From
`2 ^ 54` units on a carry is lost again, and from `2 ^ 53` on in the multiples of four. -/
theorem toUnits_product_eq_iff (n m : ℕ) :
    toUnits (ofUnits (productUnits n m)) = (n * m / 10 ^ 8 : ℕ) ↔
      numberOf (n * m / 10 ^ 8 : ℕ) = (n * m / 10 ^ 8 : ℕ) ∧
        (Carries (n * m) → 2 ^ 53 ≤ n * m / 10 ^ 8 ∧
          (2 ^ 54 ≤ n * m / 10 ^ 8 ∨ n * m / 10 ^ 8 % 4 = 0)) := by
  rw [toUnits_productUnits]
  -- what is converted to a double is one
  have hdouble : numberOf (productUnits n m) = (n * m / 10 ^ 8 : ℕ) →
      numberOf (n * m / 10 ^ 8 : ℕ) = (n * m / 10 ^ 8 : ℕ) := by
    intro h
    rw [← h, numberOf_idem]
  rcases lt_or_ge (n * m / 10 ^ 8) (2 ^ 54) with hbelow | habove
  · have hsmall : n * m < 10 ^ 28 := by omega
    rw [productUnits_eq_add hsmall] at hdouble ⊢
    by_cases hc : Carries (n * m)
    · simp only [hc, if_true, true_implies] at hdouble ⊢
      rcases lt_or_ge (n * m / 10 ^ 8) (2 ^ 53) with hlt | hge
      · refine iff_of_false (fun h => ?_) (fun h => absurd h.2.1 (not_le.mpr hlt))
        have hexact : numberOf (n * m / 10 ^ 8 + 1 : ℕ) = (n * m / 10 ^ 8 + 1 : ℕ) := by
          rcases Nat.lt_or_eq_of_le (Nat.succ_le_of_lt hlt) with hlt' | heq
          · exact numberOf_natCast hlt'
          · rw [Nat.succ_eq_add_one] at heq
            rw [heq]
            exact numberOf_two_pow
        rw [hexact] at h
        omega
      · -- the doubles here are the even numbers
        have heven : numberOf (n * m / 10 ^ 8 : ℕ) = (n * m / 10 ^ 8 : ℕ) →
            ∃ j, n * m / 10 ^ 8 = 2 * j := by
          intro h
          obtain ⟨k, e, heq, hlow, hhigh⟩ := digits_of_numberOf_eq (by omega) h
          rw [heq] at hge ⊢
          cases e with
          | zero => omega
          | succ e => exact ⟨k * 2 ^ e, by ring⟩
        constructor
        · intro h
          obtain ⟨j, hj⟩ := heven (hdouble h)
          rw [hj] at h hge hbelow ⊢
          rw [numberOf_succ_of_even (by omega) (by omega)] at h
          have hparity : 2 * (j + j % 2) = 2 * j := by exact_mod_cast h
          exact ⟨hj ▸ hdouble (hj ▸ by rw [numberOf_succ_of_even (by omega) (by omega), hparity]),
            hge, .inr (by omega)⟩
        · rintro ⟨h, -, hquarter⟩
          obtain ⟨j, hj⟩ := heven h
          rw [hj] at hge hbelow hquarter ⊢
          rw [numberOf_succ_of_even (by omega) (by omega)]
          have hparity : j % 2 = 0 := by omega
          rw [hparity, add_zero]
    · simp only [hc, if_false, add_zero, false_implies, and_true]
  · have hge : 2 ^ 53 ≤ n * m / 10 ^ 8 := by omega
    simp only [hge, habove, true_or, and_self, implies_true, and_true]
    refine ⟨hdouble, fun h => ?_⟩
    obtain ⟨k, e, heq, hlow, hhigh⟩ := digits_of_numberOf_eq (by omega) h
    have hspacing : n * m / 10 ^ 8 < 2 ^ 53 * 2 ^ e := by
      rw [heq]
      exact Nat.mul_lt_mul_of_pos_right hhigh (by positivity)
    rw [heq]
    rcases lt_or_ge (n * m) (10 ^ 28) with hsmall | hlarge
    · have hunits := productUnits_eq_add hsmall
      have hcarry : productUnits n m ≤ n * m / 10 ^ 8 + 1 ∧ n * m / 10 ^ 8 ≤ productUnits n m := by
        rw [hunits]
        split_ifs <;> omega
      rw [heq] at hcarry hspacing habove
      exact numberOf_near hlow hhigh (by omega) (by omega)
    · obtain ⟨_, d, -, -, hsize, hup, hdown⟩ := productUnits_of_ge hlarge
      rw [heq] at hsize hup hdown hspacing
      exact numberOf_near hlow hhigh (by omega) (by omega)

/-! ## Halves -/

/-- A double has at most 53 digits. -/
theorem toDouble_digits {x : ℚ} (hx : 0 ≤ x) :
    ∃ (k : ℕ) (e : ℤ), k < 2 ^ 53 ∧ toDouble x = k * (2 : ℚ) ^ e := by
  have hpos := lastPlace_pos (b := 2) (p := 53) (by decide) x
  have hnonneg := halfEven.toInt_nonneg (div_nonneg hx hpos.le)
  obtain ⟨k, hk⟩ := Int.eq_ofNat_of_zero_le hnonneg
  have hdouble : toDouble x = k * lastPlace 2 53 x := by
    rw [toDouble, significant, if_pos hx, significantNonneg, hk]
    rfl
  have hle : k ≤ 2 ^ 53 := by
    have hbound : x / lastPlace 2 53 x ≤ ((2 ^ 53 : ℕ) : ℤ) := by
      rw [div_le_iff₀ hpos]
      have hpow : (((2 ^ 53 : ℕ) : ℤ) : ℚ) * lastPlace 2 53 x = (2 : ℚ) ^ (Int.log 2 x + 1) := by
        rw [lastPlace, Int.cast_natCast, Nat.cast_pow, ← zpow_natCast, Nat.cast_ofNat,
          ← zpow_add₀ (by norm_num)]
        congr 1
        ring
      rw [hpow]
      exact (Int.lt_zpow_succ_log_self (b := 2) (by decide) x).le
    have hmono := halfEven.mono hbound
    rw [halfEven.toInt_intCast, hk] at hmono
    exact_mod_cast hmono
  rcases hle.lt_or_eq with hlt | heq
  · exact ⟨k, Int.log 2 x - (53 : ℕ) + 1, hlt, hdouble⟩
  · refine ⟨1, Int.log 2 x + 1, by norm_num, ?_⟩
    rw [hdouble, heq, lastPlace, Nat.cast_one, one_mul, Nat.cast_pow, Nat.cast_ofNat,
      ← zpow_natCast, ← zpow_add₀ (by norm_num)]
    congr 1
    push_cast
    ring

/-- Half of a double is one. -/
theorem toDouble_half {x : ℚ} (hx : 0 ≤ x) : toDouble (toDouble x / 2) = toDouble x / 2 := by
  obtain ⟨k, e, hk, hdigits⟩ := toDouble_digits hx
  have hhalf : toDouble x / 2 = k * (2 : ℚ) ^ (e - 1) := by
    rw [hdigits, zpow_sub_one₀ (by norm_num)]
    ring
  rw [hhalf]
  exact significant_exact halfEven (b := 2) (by decide) hk

end Sails.Numeric
