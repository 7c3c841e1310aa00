import SailsProtocol.Text.Decimals
import SailsProtocol.Text.JsonTree

/-!
# The text of a decimal number

JavaScript writes a number from its digits and the place of its point (`layout`) : plainly
where the point is at most 21 places to the right of the first digit and at most five places
to the left of it, and with an exponent elsewhere. `scientific s e` is the text of
`s * 10 ^ e`, whose digits are those of `s` without the zeros at its end.

`readDecimal` reads such a text back (`readDecimal_scientific`), so two numbers of one text
are equal.
-/

namespace Text

/-- The digit zero. -/
def zeroUnit : UInt16 := digitUnit 0

/-- The minus. -/
def minusSign : UInt16 := 0x2D

/-- The `e` before an exponent. -/
def exponentMark : UInt16 := 0x65

/-- `s.replace(/0+$/, '')`. -/
def stripZeros (s : JsString) : JsString := s.rdropWhile (· = zeroUnit)

/-- The sign and the digits of an exponent. -/
def exponentText (e : ℤ) : JsString :=
  (if e < 0 then minusSign else 0x2B) :: natText e.natAbs

/-- The text of `0.d₁d₂… * 10 ^ n`. -/
def layout (digits : JsString) (n : ℤ) : JsString :=
  if digits.length ≤ n ∧ n ≤ 21 then digits ++ List.replicate (n.toNat - digits.length) zeroUnit
  else if 0 < n ∧ n ≤ 21 then digits.take n.toNat ++ point :: digits.drop n.toNat
  else if -6 < n ∧ n ≤ 0 then zeroUnit :: point :: (List.replicate n.natAbs zeroUnit ++ digits)
  else digits.take 1 ++ (if digits.length = 1 then [] else point :: digits.drop 1) ++
    exponentMark :: exponentText (n - 1)

/-- The text of `s * 10 ^ e`. -/
def scientific (s : ℕ) (e : ℤ) : JsString :=
  layout (stripZeros (natText s)) (e + (natText s).length)

/-! ## Reading -/

/-- The exponent that follows its mark. -/
def readExponent : JsString → ℤ
  | _ :: u :: s => if u = minusSign then -natValue s else natValue s
  | _ => 0

/-- The number a text of digits, a point and an exponent spells. -/
def readDecimal (s : JsString) : ℚ :=
  let parts := splitPoint (s.takeWhile (· ≠ exponentMark))
  natValue (parts.1 ++ parts.2) *
    10 ^ (readExponent (s.dropWhile (· ≠ exponentMark)) - parts.2.length)

/-! ## Zeros at the ends -/

theorem natValue_zeros (j : ℕ) : natValue (List.replicate j zeroUnit) = 0 := by
  induction j with
  | zero => rfl
  | succ j ih =>
    rw [List.replicate_succ', natValue_concat, ih]
    rfl

theorem natValue_zeros_append (j : ℕ) (s : JsString) :
    natValue (List.replicate j zeroUnit ++ s) = natValue s := by
  rw [natValue_append, natValue_zeros, zero_mul, zero_add]

theorem natValue_append_zeros (s : JsString) (j : ℕ) :
    natValue (s ++ List.replicate j zeroUnit) = natValue s * 10 ^ j := by
  rw [natValue_append, natValue_zeros, List.length_replicate, add_zero]

theorem isDigit_zero : isDigit zeroUnit = true := by decide

theorem isDigit_of_mem_zeros {j : ℕ} {u : UInt16} (h : u ∈ List.replicate j zeroUnit) :
    isDigit u = true := by
  rw [List.eq_of_mem_replicate h]
  exact isDigit_zero

/-- What is stripped are zeros. -/
theorem stripZeros_append (s : JsString) :
    ∃ j, s = stripZeros s ++ List.replicate j zeroUnit := by
  induction s using List.reverseRecOn with
  | nil => exact ⟨0, rfl⟩
  | append_singleton s u ih =>
    by_cases hu : u = zeroUnit
    · obtain ⟨j, hj⟩ := ih
      refine ⟨j + 1, ?_⟩
      rw [stripZeros, List.rdropWhile_concat_pos _ _ _ (by simpa using hu), List.replicate_succ',
        ← List.append_assoc, ← stripZeros, ← hj, hu]
    · refine ⟨0, ?_⟩
      rw [stripZeros, List.rdropWhile_concat_neg _ _ _ (by simpa using hu)]
      simp

theorem isDigit_of_mem_stripZeros {s : JsString} (h : ∀ u ∈ s, isDigit u = true) :
    ∀ u ∈ stripZeros s, isDigit u = true := fun u hu =>
  h u ((List.rdropWhile_prefix _ s).subset hu)

theorem stripZeros_natText_ne_nil {s : ℕ} (h : s ≠ 0) : stripZeros (natText s) ≠ [] := by
  intro hnil
  obtain ⟨j, hj⟩ := stripZeros_append (natText s)
  rw [hnil, List.nil_append] at hj
  have hvalue := natValue_natText s
  rw [hj, natValue_zeros] at hvalue
  exact h hvalue.symm

/-! ## Reading back -/

theorem ne_exponentMark_of_isDigit {u : UInt16} (h : isDigit u = true) : u ≠ exponentMark := by
  rintro rfl
  exact absurd h (by decide)

theorem readExponent_exponentText (e : ℤ) : readExponent (exponentMark :: exponentText e) = e := by
  rw [exponentText, readExponent, natValue_natText]
  split_ifs <;> first | omega | simp_all [minusSign]

/-- A mantissa without a mark, and the rest from the mark on. -/
theorem readDecimal_append {m r : JsString} (hm : ∀ u ∈ m, u ≠ exponentMark)
    (hr : r.takeWhile (· ≠ exponentMark) = []) :
    readDecimal (m ++ r) = natValue ((splitPoint m).1 ++ (splitPoint m).2) *
      10 ^ (readExponent r - (splitPoint m).2.length) := by
  have hm' : ∀ u ∈ m, decide (u ≠ exponentMark) = true := fun u hu => decide_eq_true (hm u hu)
  have hdrop : r.dropWhile (· ≠ exponentMark) = r := by
    have := List.takeWhile_append_dropWhile (p := (· ≠ exponentMark)) (l := r)
    rwa [hr, List.nil_append] at this
  rw [readDecimal, List.takeWhile_append_of_pos hm', List.dropWhile_append_of_pos hm', hr,
    hdrop, List.append_nil]

theorem readDecimal_whole {s : JsString} (hs : ∀ u ∈ s, isDigit u = true) :
    readDecimal s = natValue s := by
  have h := readDecimal_append (r := []) (fun u hu => ne_exponentMark_of_isDigit (hs u hu)) rfl
  rw [List.append_nil, splitPoint_of_not_mem (point_not_mem hs)] at h
  simpa [readExponent] using h

/-- Digits around a point are read as a decimal. -/
theorem readDecimal_pointed {w f : JsString} (hw : ∀ u ∈ w, isDigit u = true)
    (hf : ∀ u ∈ f, isDigit u = true) :
    readDecimal (w ++ point :: f) = natValue (w ++ f) * 10 ^ (-f.length : ℤ) := by
  have hmem : ∀ u ∈ w ++ point :: f, u ≠ exponentMark := by
    intro u hu
    rcases List.mem_append.mp hu with hu | hu
    · exact ne_exponentMark_of_isDigit (hw u hu)
    · rcases List.mem_cons.mp hu with rfl | hu
      · decide
      · exact ne_exponentMark_of_isDigit (hf u hu)
  have h := readDecimal_append (r := []) hmem rfl
  rw [List.append_nil, splitPoint_digits hw hf] at h
  simpa [readExponent] using h

/-- What is laid out is read back. -/
theorem readDecimal_layout {digits : JsString} (hne : digits ≠ [])
    (hdigits : ∀ u ∈ digits, isDigit u = true) (n : ℤ) :
    readDecimal (layout digits n) = natValue digits * 10 ^ (n - digits.length) := by
  have hpos : 0 < digits.length := List.length_pos_of_ne_nil hne
  have htake : ∀ k, ∀ u ∈ digits.take k, isDigit u = true := fun k u hu =>
    hdigits u (List.mem_of_mem_take hu)
  have hdrop : ∀ k, ∀ u ∈ digits.drop k, isDigit u = true := fun k u hu =>
    hdigits u (List.mem_of_mem_drop hu)
  unfold layout
  split_ifs with hwhole hinside hsmall hone
  · -- zeros follow the digits
    rw [readDecimal_whole, natValue_append_zeros]
    · push_cast
      rw [← zpow_natCast]
      congr 2
      omega
    · intro u hu
      rcases List.mem_append.mp hu with hu | hu
      · exact hdigits u hu
      · exact isDigit_of_mem_zeros hu
  · rw [readDecimal_pointed (htake _) (hdrop _), List.take_append_drop, List.length_drop]
    congr 2
    omega
  · have hw : ∀ u ∈ [zeroUnit], isDigit u = true := by simp [isDigit_zero]
    have hf : ∀ u ∈ List.replicate n.natAbs zeroUnit ++ digits, isDigit u = true := by
      intro u hu
      rcases List.mem_append.mp hu with hu | hu
      · exact isDigit_of_mem_zeros hu
      · exact hdigits u hu
    have h := readDecimal_pointed hw hf
    rw [List.singleton_append, List.singleton_append] at h
    rw [h, ← List.cons_append, ← List.replicate_succ, natValue_zeros_append, List.length_append,
      List.length_replicate, Nat.cast_add]
    congr 2
    omega
  all_goals
    rw [readDecimal_append _ rfl, readExponent_exponentText]
  · have hall : digits.take 1 = digits := List.take_of_length_le hone.le
    rw [List.append_nil, hall, splitPoint_of_not_mem (point_not_mem hdigits), List.append_nil,
      List.length_nil, hone]
    simp
  · intro u hu
    rw [List.append_nil] at hu
    exact ne_exponentMark_of_isDigit (htake 1 u hu)
  · rw [splitPoint_digits (htake 1) (hdrop 1), List.take_append_drop, List.length_drop]
    congr 2
    omega
  · intro u hu
    rcases List.mem_append.mp hu with hu | hu
    · exact ne_exponentMark_of_isDigit (htake 1 u hu)
    · rcases List.mem_cons.mp hu with rfl | hu
      · decide
      · exact ne_exponentMark_of_isDigit (hdrop 1 u hu)

/-- The text of a number is read back. -/
theorem readDecimal_scientific {s : ℕ} (h : s ≠ 0) (e : ℤ) :
    readDecimal (scientific s e) = s * 10 ^ e := by
  obtain ⟨j, hj⟩ := stripZeros_append (natText s)
  have hvalue : s = natValue (stripZeros (natText s)) * 10 ^ j := by
    rw [← natValue_append_zeros, ← hj, natValue_natText]
  have hlength : (natText s).length = (stripZeros (natText s)).length + j := by
    have := congrArg List.length hj
    rwa [List.length_append, List.length_replicate] at this
  rw [scientific, readDecimal_layout (stripZeros_natText_ne_nil h)
    (isDigit_of_mem_stripZeros fun _ => isDigit_of_mem_natText)]
  calc (natValue (stripZeros (natText s)) : ℚ) *
        10 ^ (e + (natText s).length - (stripZeros (natText s)).length)
      = natValue (stripZeros (natText s)) * (10 ^ (j : ℤ) * 10 ^ e) := by
        rw [← zpow_add₀ (by norm_num)]
        congr 2
        omega
    _ = (natValue (stripZeros (natText s)) * 10 ^ j : ℕ) * 10 ^ e := by
        push_cast
        rw [zpow_natCast]
        ring
    _ = s * 10 ^ e := by rw [← hvalue]

/-- What is laid out begins with a digit. -/
theorem head_layout {digits : JsString} (hne : digits ≠ [])
    (hdigits : ∀ u ∈ digits, isDigit u = true) (n : ℤ) :
    ∃ u s, layout digits n = u :: s ∧ isDigit u = true := by
  obtain ⟨u, s, rfl⟩ := List.exists_cons_of_ne_nil hne
  have hu := hdigits u List.mem_cons_self
  unfold layout
  split_ifs with hwhole hinside hsmall hone
  · exact ⟨u, _, rfl, hu⟩
  · obtain ⟨k, hk⟩ : ∃ k, n.toNat = k + 1 := ⟨n.toNat - 1, by omega⟩
    rw [hk]
    exact ⟨u, _, rfl, hu⟩
  · exact ⟨zeroUnit, _, rfl, isDigit_zero⟩
  · exact ⟨u, _, rfl, hu⟩
  · exact ⟨u, _, rfl, hu⟩

theorem head_scientific {s : ℕ} (h : s ≠ 0) (e : ℤ) :
    ∃ u r, scientific s e = u :: r ∧ isDigit u = true :=
  head_layout (stripZeros_natText_ne_nil h)
    (isDigit_of_mem_stripZeros fun _ => isDigit_of_mem_natText) _

/-- Equal texts are of equal numbers. -/
theorem scientific_inj {s t : ℕ} {e f : ℤ} (hs : s ≠ 0) (ht : t ≠ 0)
    (h : scientific s e = scientific t f) : (s : ℚ) * 10 ^ e = t * 10 ^ f := by
  rw [← readDecimal_scientific hs, h, readDecimal_scientific ht]

/-- A power of ten adds zeros. -/
theorem natText_mul_pow {s : ℕ} (hs : s ≠ 0) (k : ℕ) :
    natText (s * 10 ^ k) = natText s ++ List.replicate k zeroUnit := by
  obtain ⟨u, r, hu⟩ := List.exists_cons_of_ne_nil (natText_ne_nil s)
  have hlead : u ≠ digitUnit 0 := by
    have hhead := head_natText hs
    rw [hu, List.head?_cons] at hhead
    exact fun h => hhead (congrArg some h)
  have hdigits : ∀ v ∈ u :: (r ++ List.replicate k zeroUnit), isDigit v = true := by
    intro v hv
    rw [← List.cons_append, ← hu] at hv
    rcases List.mem_append.mp hv with hv | hv
    · exact isDigit_of_mem_natText hv
    · exact isDigit_of_mem_zeros hv
  have htext := natText_natValue hdigits fun h => absurd h hlead
  rwa [← List.cons_append, ← hu, natValue_append_zeros, natValue_natText] at htext

/-- A whole number below `10 ^ 21` is written plainly. -/
theorem scientific_natCast {s k : ℕ} (hs : s ≠ 0) (h : s * 10 ^ k < 10 ^ 21) :
    scientific s k = natText (s * 10 ^ k) := by
  obtain ⟨j, hj⟩ := stripZeros_append (natText s)
  have hlength : (natText s).length = (stripZeros (natText s)).length + j := by
    have := congrArg List.length hj
    rwa [List.length_append, List.length_replicate] at this
  have hk : (natText s).length + k ≤ 21 := by
    have := length_natText_le (by decide) h
    rwa [natText_mul_pow hs, List.length_append, List.length_replicate] at this
  have hcount : ((k : ℤ) + (natText s).length).toNat - (stripZeros (natText s)).length =
      j + k := by omega
  rw [scientific, layout, if_pos ⟨by omega, by omega⟩, hcount, List.replicate_add,
    ← List.append_assoc, ← hj, natText_mul_pow hs]

/-! ## Its characters -/

theorem isNumberUnit_of_isDigit {u : UInt16} (h : isDigit u = true) : isNumberUnit u = true := by
  simp [isNumberUnit, h]

theorem isNumberUnit_of_mem_exponentText {e : ℤ} {u : UInt16} (h : u ∈ exponentText e) :
    isNumberUnit u = true := by
  rcases List.mem_cons.mp h with rfl | h
  · split_ifs <;> decide
  · exact isNumberUnit_of_isDigit (isDigit_of_mem_natText h)

/-- What is laid out consists of units of numbers. -/
theorem isNumberUnit_of_mem_layout {digits : JsString} {n : ℤ}
    (hdigits : ∀ u ∈ digits, isDigit u = true) {u : UInt16} (h : u ∈ layout digits n) :
    isNumberUnit u = true := by
  have hof : ∀ v ∈ digits, isNumberUnit v = true := fun v hv =>
    isNumberUnit_of_isDigit (hdigits v hv)
  have hzero : ∀ {j : ℕ} {v : UInt16}, v ∈ List.replicate j zeroUnit → isNumberUnit v = true :=
    fun hv => isNumberUnit_of_isDigit (isDigit_of_mem_zeros hv)
  have hpoint : isNumberUnit point = true := by decide
  have hmark : isNumberUnit exponentMark = true := by decide
  unfold layout at h
  split_ifs at h with hwhole hinside hsmall hone
  · rcases List.mem_append.mp h with h | h
    · exact hof u h
    · exact hzero h
  · rcases List.mem_append.mp h with h | h
    · exact hof u (List.mem_of_mem_take h)
    · rcases List.mem_cons.mp h with rfl | h
      · exact hpoint
      · exact hof u (List.mem_of_mem_drop h)
  · rcases List.mem_cons.mp h with rfl | h
    · decide
    · rcases List.mem_cons.mp h with rfl | h
      · exact hpoint
      · rcases List.mem_append.mp h with h | h
        · exact hzero h
        · exact hof u h
  · rw [List.append_nil] at h
    rcases List.mem_append.mp h with h | h
    · exact hof u (List.mem_of_mem_take h)
    · rcases List.mem_cons.mp h with rfl | h
      · exact hmark
      · exact isNumberUnit_of_mem_exponentText h
  · rcases List.mem_append.mp h with h | h
    · rcases List.mem_append.mp h with h | h
      · exact hof u (List.mem_of_mem_take h)
      · rcases List.mem_cons.mp h with rfl | h
        · exact hpoint
        · exact hof u (List.mem_of_mem_drop h)
    · rcases List.mem_cons.mp h with rfl | h
      · exact hmark
      · exact isNumberUnit_of_mem_exponentText h

theorem isNumberUnit_of_mem_scientific {s : ℕ} {e : ℤ} {u : UInt16} (h : u ∈ scientific s e) :
    isNumberUnit u = true :=
  isNumberUnit_of_mem_layout (isDigit_of_mem_stripZeros fun _ => isDigit_of_mem_natText) h

end Text
