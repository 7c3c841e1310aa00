import SailsProtocol.Numeric.Number
import SailsProtocol.Text.Scientific

/-!
# The text of a number

A JavaScript number is not a number, infinite, or a sign with the size of a double
(`JsNumber`). `numberText` is `String(n)` : a size is written with as few digits as any
decimal that rounds to it has, and among those of that length the nearer one.

The decimal that is written rounds to the size (`number_significand`), so the text determines
the number up to the sign of zero (`numberText_eq_iff`). A whole number that is small enough is
written with all its digits (`numberText_ofNat`).
-/

namespace Sails.Numeric

open Text

/-- The size of a finite double. -/
structure Magnitude where
  val : ℚ
  nonneg : 0 ≤ val
  finite : val < 2 ^ 1024
  double : number val = val
  deriving DecidableEq

theorem Magnitude.ext_val {m m' : Magnitude} (h : m.val = m'.val) : m = m' := by
  cases m
  cases m'
  cases h
  rfl

/-- A small whole number. -/
def Magnitude.ofNat (n : ℕ) (h : n < 2 ^ 53) : Magnitude where
  val := n
  nonneg := n.cast_nonneg
  finite := by
    have : (n : ℚ) < 2 ^ 53 := by exact_mod_cast h
    exact this.trans (pow_lt_pow_right₀ (by norm_num) (by norm_num))
  double := number_natCast h

/-- A number of JavaScript. -/
inductive JsNumber where
  | nan
  | infinite (negative : Bool)
  | finite (negative : Bool) (size : Magnitude)
  deriving DecidableEq

namespace JsNumber

/-- The number without a sign of zero. -/
def withoutSignOfZero : JsNumber → JsNumber
  | finite negative size => finite (negative && size.val != 0) size
  | x => x

/-- The same number, zero being the same with either sign. -/
def Same (x y : JsNumber) : Prop := x.withoutSignOfZero = y.withoutSignOfZero

instance (x y : JsNumber) : Decidable (x.Same y) :=
  inferInstanceAs (Decidable (x.withoutSignOfZero = y.withoutSignOfZero))

end JsNumber

/-! ## Shortening -/

section Shorten

variable (x : ℚ)

/-- One unit of the `k`-th digit of `x`. -/
def digitUnitOf (k : ℕ) : ℚ := 10 ^ (Int.log 10 x + 1 - k)

/-- The first `k` digits of `x`. -/
def firstDigits (k : ℕ) : ℕ := ⌊x / digitUnitOf x k⌋₊

/-- The number of `k` digits nearest to `x` of those around it that round to it. -/
def shortened (k : ℕ) : Option ℕ :=
  let s := firstDigits x k
  let u := digitUnitOf x k
  if number (s * u) = x then
    if number ((s + 1 : ℕ) * u) = x ∧ (s + 1 : ℕ) * u - x < x - s * u then some (s + 1) else some s
  else if number ((s + 1 : ℕ) * u) = x then some (s + 1)
  else none

variable {x}

/-- The shortened digits are read back as the number. -/
theorem number_shortened {k s : ℕ} (h : shortened x k = some s) :
    number (s * digitUnitOf x k) = x := by
  unfold shortened at h
  dsimp only at h
  split_ifs at h with hbelow hboth habove
  · cases h
    exact hboth.1
  · cases h
    exact hbelow
  · cases h
    exact habove

/-- Digits that give the number exactly shorten it. -/
theorem shortened_isSome {k n : ℕ} (hx : number x = x) (h : x / digitUnitOf x k = n)
    (hpos : 0 < digitUnitOf x k) : (shortened x k).isSome = true := by
  have hexact : (firstDigits x k : ℚ) * digitUnitOf x k = x := by
    rw [firstDigits, h, Nat.floor_natCast, ← h, div_mul_cancel₀ _ hpos.ne']
  unfold shortened
  dsimp only
  rw [if_pos (by rw [hexact, hx])]
  split_ifs <;> rfl

theorem digitUnitOf_pos (k : ℕ) : 0 < digitUnitOf x k := zpow_pos (by norm_num) _

end Shorten

/-- A double is a whole number times a power of two. -/
theorem toDouble_dyadic (x : ℚ) : ∃ i z : ℤ, toDouble x = i * 2 ^ z := by
  rw [toDouble, significant]
  split_ifs
  · exact ⟨_, _, by rw [significantNonneg, lastPlace, Nat.cast_ofNat]⟩
  · exact ⟨-halfEven.toInt (-x / lastPlace 2 53 (-x)), Int.log 2 (-x) - (53 : ℕ) + 1, by
      rw [significantNonneg, lastPlace, Nat.cast_ofNat]
      push_cast
      ring⟩

theorem toGradual_dyadic (x : ℚ) : ∃ i z : ℤ, toGradual x = i * 2 ^ z := by
  rw [toGradual]
  split_ifs
  · exact ⟨_, _, rfl⟩
  · exact toDouble_dyadic x

theorem eq_of_clamped {b y z : ℚ} (h : max (-b) (min b y) = z) (hlow : -b < z) (hhigh : z < b) :
    y = z := by
  rcases max_choice (-b) (min b y) with hmax | hmax
  · exact absurd (hmax.symm.trans h) hlow.ne
  · rcases min_choice b y with hmin | hmin
    · exact absurd (hmin.symm.trans (hmax.symm.trans h)) hhigh.ne'
    · exact hmin.symm.trans (hmax.symm.trans h)

namespace Magnitude

theorem toGradual_val (m : Magnitude) : toGradual m.val = m.val := by
  have hpos : (0 : ℚ) < 2 ^ 1024 := pow_pos (by norm_num) _
  exact eq_of_clamped m.double ((neg_lt_zero.mpr hpos).trans_le m.nonneg) m.finite

/-- A double is a natural number over a power of two. -/
theorem eq_div_two_pow (m : Magnitude) : ∃ n j : ℕ, m.val = n / 2 ^ j := by
  obtain ⟨i, z, h⟩ := toGradual_dyadic m.val
  rw [m.toGradual_val] at h
  have hi : 0 ≤ i := by
    have hpos : (0 : ℚ) < 2 ^ z := zpow_pos (by norm_num) _
    have := m.nonneg
    rw [h] at this
    exact_mod_cast nonneg_of_mul_nonneg_left this hpos
  obtain ⟨n, rfl⟩ := Int.eq_ofNat_of_zero_le hi
  obtain ⟨j, rfl | rfl⟩ := z.eq_nat_or_neg
  · refine ⟨n * 2 ^ j, 0, ?_⟩
    rw [h]
    push_cast
    rw [zpow_natCast, pow_zero, div_one]
  · refine ⟨n, j, ?_⟩
    rw [h, zpow_neg, zpow_natCast, Int.cast_natCast, div_eq_mul_inv]

/-- Some number of digits is enough. -/
theorem exists_shortened (m : Magnitude) : ∃ k, (shortened m.val (k + 1)).isSome = true := by
  obtain ⟨n, j, h⟩ := m.eq_div_two_pow
  obtain ⟨p, hp⟩ : ∃ p, Int.log 10 m.val + 1 = p := ⟨_, rfl⟩
  obtain ⟨i, hi⟩ := Int.eq_ofNat_of_zero_le
    (show 0 ≤ -(p - ((p + j).toNat + 1 : ℕ)) - j by omega)
  have hplace : digitUnitOf m.val ((p + j).toNat + 1) = 10 ^ (-((j + i : ℕ) : ℤ)) := by
    rw [digitUnitOf, hp]
    congr 1
    push_cast at hi ⊢
    omega
  refine ⟨(p + j).toNat, shortened_isSome (n := n * 5 ^ j * 10 ^ i) m.double ?_
    (digitUnitOf_pos _)⟩
  have hten : (10 : ℚ) ^ j = 2 ^ j * 5 ^ j := by
    rw [← mul_pow]
    norm_num
  rw [hplace, zpow_neg, div_inv_eq_mul, zpow_natCast, h, pow_add, hten]
  push_cast
  field_simp

/-- The least number of digits of a decimal that rounds to the size. -/
def digitCount (m : Magnitude) : ℕ := Nat.find m.exists_shortened + 1

/-- The digits `String(n)` writes. -/
def significand (m : Magnitude) : ℕ := (shortened m.val m.digitCount).getD 0

/-- The place of the last of them. -/
def exponent (m : Magnitude) : ℤ := Int.log 10 m.val + 1 - m.digitCount

theorem number_significand (m : Magnitude) : number (m.significand * 10 ^ m.exponent) = m.val := by
  obtain ⟨s, hs⟩ := Option.isSome_iff_exists.mp (Nat.find_spec m.exists_shortened)
  have hdigits : shortened m.val m.digitCount = some s := hs
  have h := number_shortened hdigits
  rwa [significand, hdigits]

theorem significand_ne_zero {m : Magnitude} (h : m.val ≠ 0) : m.significand ≠ 0 := by
  intro hzero
  have hnumber := m.number_significand
  rw [hzero, Nat.cast_zero, zero_mul, number_zero] at hnumber
  exact h hnumber.symm

/-- The text of a magnitude. -/
def text (m : Magnitude) : JsString :=
  if m.val = 0 then [zeroUnit] else scientific m.significand m.exponent

theorem head_text (m : Magnitude) : ∃ u s, m.text = u :: s ∧ isDigit u = true := by
  unfold text
  split_ifs with h
  · exact ⟨_, _, rfl, isDigit_zero⟩
  · exact head_scientific (significand_ne_zero h) _

theorem isNumberUnit_of_mem_text {m : Magnitude} {u : UInt16} (h : u ∈ m.text) :
    isNumberUnit u = true := by
  unfold text at h
  split_ifs at h
  · rw [List.mem_singleton.mp h]
    exact isNumberUnit_of_isDigit isDigit_zero
  · exact isNumberUnit_of_mem_scientific h

/-- The text reads as a decimal that rounds to the size. -/
theorem number_readDecimal_text (m : Magnitude) : number (readDecimal m.text) = m.val := by
  unfold text
  split_ifs with h
  · have hzero : readDecimal [zeroUnit] = 0 := by
      rw [readDecimal_whole (by simp [isDigit_zero])]
      exact_mod_cast natValue_zeros 1
    rw [hzero, number_zero, h]
  · rw [readDecimal_scientific (significand_ne_zero h), number_significand]

theorem text_injective : Function.Injective text := by
  intro m m' h
  have hnumber := m.number_readDecimal_text
  rw [h, number_readDecimal_text] at hnumber
  exact ext_val hnumber.symm

end Magnitude

/-! ## Whole numbers -/

theorem number_two_pow : number (2 ^ 53 : ℕ) = (2 ^ 53 : ℕ) := by
  have hdouble : toDouble (2 ^ 53 : ℕ) = (2 ^ 53 : ℕ) := by
    have h := significant_exact halfEven (b := 2) (p := 53) (k := 1) (e := 53) (by decide)
      (by decide)
    rw [toDouble]
    push_cast at h ⊢
    exact_mod_cast h
  have hone : leastNormal ≤ ((2 ^ 53 : ℕ) : ℚ) :=
    (zpow_le_one_of_nonpos₀ (a := (2 : ℚ)) (by norm_num) (by norm_num)).trans (by norm_num)
  have hlarge : ((2 ^ 53 : ℕ) : ℚ) ≤ 2 ^ 1024 := by
    rw [Nat.cast_pow]
    exact pow_le_pow_right₀ one_le_two (by norm_num)
  have hlow : -2 ^ 1024 ≤ ((2 ^ 53 : ℕ) : ℚ) := by
    have hpow : (0 : ℚ) ≤ 2 ^ 1024 := by positivity
    exact (neg_nonpos.mpr hpow).trans (Nat.cast_nonneg _)
  rw [number, toGradual, Nat.abs_cast, if_neg (not_lt.mpr hone), hdouble, min_eq_right hlarge,
    max_eq_right hlow]

/-- A whole number that rounds to a small one is that one. -/
theorem eq_of_number_natCast {n k : ℕ} (hn : n < 2 ^ 53) (h : number k = n) : k = n := by
  rcases lt_or_ge k (2 ^ 53) with hk | hk
  · rw [number_natCast hk] at h
    exact_mod_cast h
  · have hmono := number_mono (show ((2 ^ 53 : ℕ) : ℚ) ≤ k by exact_mod_cast hk)
    rw [number_two_pow, h] at hmono
    exact absurd (by exact_mod_cast hmono) (not_le.mpr hn)

namespace Magnitude

variable {n : ℕ} {hn : n < 2 ^ 53}

/-- No digit is written after the point. -/
theorem exponent_ofNat_nonneg : 0 ≤ (ofNat n hn).exponent := by
  have hval : (ofNat n hn).val = n := rfl
  have hplace : digitUnitOf (ofNat n hn).val (Nat.log 10 n + 1) = 1 := by
    rw [digitUnitOf, hval, Int.log_natCast]
    push_cast
    rw [sub_self, zpow_zero]
  have hexact : (shortened (ofNat n hn).val (Nat.log 10 n + 1)).isSome = true := by
    refine shortened_isSome (n := n) (ofNat n hn).double ?_ (digitUnitOf_pos _)
    rw [hplace, div_one, hval]
  have hleast : (ofNat n hn).digitCount ≤ Nat.log 10 n + 1 :=
    Nat.succ_le_succ (Nat.find_min' _ hexact)
  rw [exponent, hval, Int.log_natCast]
  omega

/-- The text of a whole number. -/
theorem text_ofNat : (ofNat n hn).text = natText n := by
  rcases eq_or_ne n 0 with rfl | h
  · rw [text, if_pos (show (ofNat 0 hn).val = 0 from Nat.cast_zero), natText, if_pos rfl]
    rfl
  · have hval : (ofNat n hn).val ≠ 0 := Nat.cast_ne_zero.mpr h
    have hnonneg : 0 ≤ (ofNat n hn).exponent := exponent_ofNat_nonneg
    obtain ⟨k, hk⟩ := Int.eq_ofNat_of_zero_le hnonneg
    have hnumber := (ofNat n hn).number_significand
    rw [hk, zpow_natCast] at hnumber
    have hwhole : (ofNat n hn).significand * 10 ^ k = n :=
      eq_of_number_natCast hn (by push_cast; exact hnumber)
    have hlarge : (ofNat n hn).significand * 10 ^ k < 10 ^ 21 := by
      rw [hwhole]
      exact hn.trans (by norm_num)
    rw [text, if_neg hval, hk, scientific_natCast (significand_ne_zero hval) hlarge, hwhole]

end Magnitude

/-! ## Texts -/

/-- A text with its sign. -/
def signed (negative : Bool) (s : JsString) : JsString :=
  if negative then minusSign :: s else s

/-- `String(n)`. -/
def numberText : JsNumber → JsString
  | .nan => js "NaN"
  | .infinite negative => signed negative (js "Infinity")
  | .finite negative size => signed (negative && size.val != 0) size.text

theorem numberText_ofNat {n : ℕ} (hn : n < 2 ^ 53) :
    numberText (.finite false (.ofNat n hn)) = natText n :=
  Magnitude.text_ofNat

/-- The signed text has only the code units of numbers. -/
theorem isNumberUnit_of_mem_signed {negative : Bool} {size : Magnitude} {u : UInt16}
    (h : u ∈ signed negative size.text) : isNumberUnit u = true := by
  cases negative with
  | false => exact Magnitude.isNumberUnit_of_mem_text h
  | true =>
    rcases List.mem_cons.mp h with rfl | h
    · decide
    · exact Magnitude.isNumberUnit_of_mem_text h

/-- The signed text determines the sign and the magnitude. -/
theorem signed_text_inj {negative negative' : Bool} {size size' : Magnitude}
    (h : signed negative size.text = signed negative' size'.text) :
    negative = negative' ∧ size = size' := by
  obtain ⟨u, s, hs, hu⟩ := size.head_text
  obtain ⟨u', s', hs', hu'⟩ := size'.head_text
  have hminus : ∀ {v : UInt16}, isDigit v = true → minusSign ≠ v := by
    rintro v hv rfl
    exact absurd hv (by decide)
  cases negative <;> cases negative'
  · exact ⟨rfl, Magnitude.text_injective h⟩
  · rw [signed, hs] at h
    exact absurd (List.cons.inj h).1.symm (hminus hu)
  · rw [signed, signed, hs'] at h
    exact absurd (List.cons.inj h).1 (hminus hu')
  · exact ⟨rfl, Magnitude.text_injective (List.cons.inj h).2⟩

/-- A letter of the texts of no finite number. -/
theorem numberText_finite_ne {negative : Bool} {size : Magnitude} {s : JsString} {u : UInt16}
    (hu : u ∈ s) (hletter : isNumberUnit u = false) :
    numberText (.finite negative size) ≠ s := by
  rintro rfl
  rw [isNumberUnit_of_mem_signed hu] at hletter
  cases hletter

/-- The text determines the number up to the sign of zero. -/
theorem numberText_eq_iff {x y : JsNumber} : numberText x = numberText y ↔ x.Same y := by
  have hnan : (0x4E : UInt16) ∈ numberText .nan := by decide
  have hinfinite : ∀ negative, (0x49 : UInt16) ∈ numberText (.infinite negative) := by decide
  cases x with
  | nan =>
    cases y with
    | nan => simp [JsNumber.Same]
    | infinite negative =>
      simp only [JsNumber.Same, JsNumber.withoutSignOfZero, reduceCtorEq, iff_false]
      cases negative <;> decide
    | finite negative size =>
      simp only [JsNumber.Same, JsNumber.withoutSignOfZero, reduceCtorEq, iff_false]
      exact (numberText_finite_ne hnan (by decide)).symm
  | infinite negative =>
    cases y with
    | nan =>
      simp only [JsNumber.Same, JsNumber.withoutSignOfZero, reduceCtorEq, iff_false]
      cases negative <;> decide
    | infinite negative' =>
      simp only [JsNumber.Same, JsNumber.withoutSignOfZero]
      cases negative <;> cases negative' <;> decide
    | finite negative' size =>
      simp only [JsNumber.Same, JsNumber.withoutSignOfZero, reduceCtorEq, iff_false]
      exact (numberText_finite_ne (hinfinite negative) (by decide)).symm
  | finite negative size =>
    cases y with
    | nan =>
      simp only [JsNumber.Same, JsNumber.withoutSignOfZero, reduceCtorEq, iff_false]
      exact numberText_finite_ne hnan (by decide)
    | infinite negative' =>
      simp only [JsNumber.Same, JsNumber.withoutSignOfZero, reduceCtorEq, iff_false]
      exact numberText_finite_ne (hinfinite negative') (by decide)
    | finite negative' size' =>
      simp only [JsNumber.Same, JsNumber.withoutSignOfZero, JsNumber.finite.injEq]
      refine ⟨signed_text_inj, fun ⟨hsign, hsize⟩ => ?_⟩
      rw [numberText, numberText, hsign, hsize]

/-- A character that stands in no number's text. -/
theorem not_mem_numberText {u : UInt16} (hunit : isNumberUnit u = false)
    (hnan : u ∉ js "NaN") (hinfinity : u ∉ js "Infinity") (x : JsNumber) : u ∉ numberText x := by
  cases x with
  | nan => exact hnan
  | infinite negative =>
    cases negative with
    | false => exact hinfinity
    | true =>
      rw [numberText, signed, if_pos rfl, List.mem_cons, not_or]
      refine ⟨?_, hinfinity⟩
      rintro rfl
      exact absurd hunit (by decide)
  | finite negative size =>
    intro hu
    rw [isNumberUnit_of_mem_signed hu] at hunit
    cases hunit

end Sails.Numeric
