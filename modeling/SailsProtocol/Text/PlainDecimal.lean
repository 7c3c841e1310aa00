import SailsProtocol.Text.Scientific

/-!
# Plain decimal texts

A plain text of a decimal number is a sign, the digits of its whole part and, where there are
any, a point and the digits of its fraction (`PlainDecimal`). Zeros at the end of the fraction
change the text and not the number : two numbers are equal exactly when their whole parts are
and their fractions without such zeros are (`size_eq_iff`).

A number whose exponent is neither too small nor too large is written plainly
(`exists_plain`).
-/

namespace Text

/-- `padStart(width, '0')`. -/
def padStart (width : ℕ) (s : JsString) : JsString :=
  List.replicate (width - s.length) zeroUnit ++ s

/-! ## Fractions -/

/-- What the digits after the point add to the number. -/
def fractionValue (f : JsString) : ℚ := natValue f / 10 ^ f.length

theorem fractionValue_nonneg (f : JsString) : 0 ≤ fractionValue f := by
  unfold fractionValue
  positivity

theorem fractionValue_lt_one {f : JsString} (hf : ∀ u ∈ f, isDigit u = true) :
    fractionValue f < 1 := by
  rw [fractionValue, div_lt_one (by positivity)]
  exact_mod_cast natValue_lt hf

theorem fractionValue_append_zeros (f : JsString) (j : ℕ) :
    fractionValue (f ++ List.replicate j zeroUnit) = fractionValue f := by
  rw [fractionValue, fractionValue, natValue_append_zeros, List.length_append,
    List.length_replicate, pow_add]
  push_cast
  exact mul_div_mul_right _ _ (by positivity)

theorem stripZeros_append_zeros (f : JsString) (j : ℕ) :
    stripZeros (f ++ List.replicate j zeroUnit) = stripZeros f := by
  induction j with
  | zero => rw [List.replicate_zero, List.append_nil]
  | succ j ih =>
    rw [List.replicate_succ', ← List.append_assoc, stripZeros,
      List.rdropWhile_concat_pos _ _ _ (by simp)]
    exact ih

theorem fractionValue_stripZeros (f : JsString) :
    fractionValue (stripZeros f) = fractionValue f := by
  obtain ⟨j, hj⟩ := stripZeros_append f
  conv_rhs => rw [hj]
  rw [fractionValue_append_zeros]

/-- Digits of one length are determined by their value. -/
theorem eq_of_natValue_eq {s t : JsString} (hs : ∀ u ∈ s, isDigit u = true)
    (ht : ∀ u ∈ t, isDigit u = true) (hlength : s.length = t.length)
    (h : natValue s = natValue t) : s = t := by
  rw [← padded_natValue hs, ← padded_natValue ht, hlength, h]

/-- The longer of two equal fractions is the shorter one with zeros. -/
theorem eq_append_zeros {f f' : JsString} (hf : ∀ u ∈ f, isDigit u = true)
    (hf' : ∀ u ∈ f', isDigit u = true) (hlength : f.length ≤ f'.length)
    (h : fractionValue f = fractionValue f') :
    f' = f ++ List.replicate (f'.length - f.length) zeroUnit := by
  have hdigits : ∀ u ∈ f ++ List.replicate (f'.length - f.length) zeroUnit,
      isDigit u = true := by
    intro u hu
    rcases List.mem_append.mp hu with hu | hu
    · exact hf u hu
    · exact isDigit_of_mem_zeros hu
  have hlen : f'.length = (f ++ List.replicate (f'.length - f.length) zeroUnit).length := by
    rw [List.length_append, List.length_replicate]
    omega
  refine eq_of_natValue_eq hf' hdigits hlen ?_
  rw [← fractionValue_append_zeros f (f'.length - f.length), fractionValue, fractionValue, ← hlen,
    div_left_inj' (by positivity)] at h
  exact_mod_cast h.symm

/-- Fractions of one value differ in zeros at the end only. -/
theorem fractionValue_eq_iff {f f' : JsString} (hf : ∀ u ∈ f, isDigit u = true)
    (hf' : ∀ u ∈ f', isDigit u = true) :
    fractionValue f = fractionValue f' ↔ stripZeros f = stripZeros f' := by
  constructor
  · intro h
    rcases le_total f.length f'.length with hle | hle
    · rw [eq_append_zeros hf hf' hle h, stripZeros_append_zeros]
    · rw [eq_append_zeros hf' hf hle h.symm, stripZeros_append_zeros]
  · intro h
    rw [← fractionValue_stripZeros f, h, fractionValue_stripZeros]

/-- The first digits of a fraction, with zeros where there are too few, are what is left when
the rest is cut off. -/
theorem natValue_padEnd_take {f : JsString} (hf : ∀ u ∈ f, isDigit u = true) (d : ℕ) :
    (natValue (padEnd d (f.take d)) : ℤ) = ⌊fractionValue f * 10 ^ d⌋ := by
  have hzeros : padEnd d (f.take d) =
      f.take d ++ List.replicate (d - (f.take d).length) zeroUnit := rfl
  rw [hzeros, natValue_append_zeros, List.length_take]
  symm
  rcases le_total d f.length with hle | hle
  · have hvalue : natValue f =
        natValue (f.take d) * 10 ^ (f.length - d) + natValue (f.drop d) := by
      conv_lhs => rw [← List.take_append_drop d f, natValue_append, List.length_drop]
    have hrest : natValue (f.drop d) < 10 ^ (f.length - d) := by
      have := natValue_lt fun u (hu : u ∈ f.drop d) => hf u (List.mem_of_mem_drop hu)
      rwa [List.length_drop] at this
    have hpow : (10 : ℚ) ^ f.length = 10 ^ (f.length - d) * 10 ^ d := by
      rw [← pow_add, Nat.sub_add_cancel hle]
    have hfraction : fractionValue f * 10 ^ d =
        natValue (f.take d) + natValue (f.drop d) / 10 ^ (f.length - d) := by
      rw [fractionValue, hpow, hvalue]
      push_cast
      field_simp
    rw [min_eq_left hle, Nat.sub_self, pow_zero, mul_one, Int.floor_eq_iff, hfraction]
    have hnonneg : (0 : ℚ) ≤ natValue (f.drop d) / 10 ^ (f.length - d) := by positivity
    have hlt : (natValue (f.drop d) : ℚ) / 10 ^ (f.length - d) < 1 := by
      rw [div_lt_one (by positivity)]
      exact_mod_cast hrest
    push_cast
    constructor <;> linarith
  · rw [min_eq_right hle, List.take_of_length_le hle, fractionValue, Int.floor_eq_iff]
    have hpow : (10 : ℚ) ^ d = 10 ^ f.length * 10 ^ (d - f.length) := by
      rw [← pow_add, Nat.add_sub_cancel' hle]
    have hexact : (natValue f : ℚ) / 10 ^ f.length * 10 ^ d =
        natValue f * 10 ^ (d - f.length) := by
      rw [hpow]
      field_simp
    rw [hexact]
    push_cast
    constructor <;> linarith

/-! ## Plain texts -/

/-- A sign, a whole part and the digits after the point. -/
structure PlainDecimal where
  negative : Bool
  whole : ℕ
  fraction : JsString
  digits : ∀ u ∈ fraction, isDigit u = true

namespace PlainDecimal

variable (p q : PlainDecimal)

/-- The sign and the whole part. -/
def wholeText : JsString := (if p.negative then [minusSign] else []) ++ natText p.whole

/-- The decimal as it is written. -/
def text : JsString := p.wholeText ++ if p.fraction = [] then [] else point :: p.fraction

/-- The number without its sign. -/
def size : ℚ := p.whole + fractionValue p.fraction

variable {p q}

/-- Decimals of one size have the same whole part and, but for zeros, the same fraction. -/
theorem size_eq_iff : p.size = q.size ↔
    p.whole = q.whole ∧ stripZeros p.fraction = stripZeros q.fraction := by
  rw [← fractionValue_eq_iff p.digits q.digits]
  constructor
  · intro h
    have hfloor : ∀ r : PlainDecimal, ⌊r.size⌋ = r.whole := by
      intro r
      have hnonneg := fractionValue_nonneg r.fraction
      have hlt := fractionValue_lt_one r.digits
      rw [Int.floor_eq_iff, size]
      push_cast
      constructor <;> linarith
    have hwhole : p.whole = q.whole := by
      have := hfloor p
      rw [h, hfloor q] at this
      exact_mod_cast this.symm
    rw [size, size, hwhole] at h
    exact ⟨hwhole, add_left_cancel h⟩
  · rintro ⟨hwhole, hfraction⟩
    rw [size, size, hwhole, hfraction]

theorem mem_wholeText {u : UInt16} (h : u ∈ p.wholeText) : u = minusSign ∨ isDigit u = true := by
  rcases List.mem_append.mp h with h | h
  · split_ifs at h
    · exact Or.inl (List.mem_singleton.mp h)
    · cases h
  · exact Or.inr (isDigit_of_mem_natText h)

/-- A decimal is split at its point. -/
theorem splitPoint_text : splitPoint p.text = (p.wholeText, p.fraction) := by
  have hwhole : point ∉ p.wholeText := by
    intro hu
    rcases mem_wholeText hu with h | h <;> exact absurd h (by decide)
  have hfraction : point ∉ p.fraction := point_not_mem p.digits
  unfold text
  split_ifs with h
  · rw [List.append_nil, splitPoint_of_not_mem hwhole, h]
  · exact splitPoint_append hwhole hfraction

/-- A decimal without sign is read as its size. -/
theorem readDecimal_text (h : p.negative = false) : readDecimal p.text = p.size := by
  have hwhole : p.wholeText = natText p.whole := by
    rw [wholeText, h]
    rfl
  rw [text, hwhole, size]
  split_ifs with hfraction
  · rw [List.append_nil, readDecimal_whole fun _ => isDigit_of_mem_natText, natValue_natText,
      hfraction]
    simp [fractionValue, natValue]
  · rw [readDecimal_pointed (fun _ => isDigit_of_mem_natText) p.digits, natValue_append,
      natValue_natText, fractionValue, zpow_neg, zpow_natCast]
    push_cast
    field_simp

end PlainDecimal

/-! ## Numbers without an exponent -/

/-- Digits without a leading zero are the text of their value. -/
theorem natText_of_head {s : JsString} (hs : ∀ u ∈ s, isDigit u = true) (hne : s ≠ [])
    (hhead : s.head? ≠ some zeroUnit) : natText (natValue s) = s := by
  obtain ⟨u, r, rfl⟩ := List.exists_cons_of_ne_nil hne
  exact natText_natValue hs fun h => absurd (congrArg some h) hhead

theorem head_stripZeros {s : ℕ} (h : s ≠ 0) : (stripZeros (natText s)).head? ≠ some zeroUnit := by
  obtain ⟨j, hj⟩ := stripZeros_append (natText s)
  have hhead := head_natText h
  rwa [hj, List.head?_append_of_ne_nil _ (stripZeros_natText_ne_nil h)] at hhead

/-- A number of moderate exponent is laid out as a plain decimal. -/
theorem exists_layout_plain {digits : JsString} (hne : digits ≠ [])
    (hdigits : ∀ u ∈ digits, isDigit u = true) (hhead : digits.head? ≠ some zeroUnit) {n : ℤ}
    (hlow : -6 < n) (hhigh : n ≤ 21) :
    ∃ p : PlainDecimal, p.negative = false ∧ p.text = layout digits n := by
  unfold layout
  split_ifs with hwhole hinside hsmall
  · have hall : ∀ u ∈ digits ++ List.replicate (n.toNat - digits.length) zeroUnit,
        isDigit u = true := by
      intro u hu
      rcases List.mem_append.mp hu with hu | hu
      · exact hdigits u hu
      · exact isDigit_of_mem_zeros hu
    refine ⟨⟨false, natValue (digits ++ List.replicate (n.toNat - digits.length) zeroUnit), [],
      nofun⟩, rfl, ?_⟩
    rw [PlainDecimal.text, PlainDecimal.wholeText, if_pos rfl, List.append_nil]
    exact natText_of_head hall (List.append_ne_nil_of_left_ne_nil hne _)
      (by rwa [List.head?_append_of_ne_nil _ hne])
  · have htake : digits.take n.toNat ≠ [] := by
      rw [Ne, List.take_eq_nil_iff, not_or]
      exact ⟨by omega, hne⟩
    have hdrop : digits.drop n.toNat ≠ [] := by
      rw [Ne, List.drop_eq_nil_iff]
      omega
    refine ⟨⟨false, natValue (digits.take n.toNat), digits.drop n.toNat, fun u hu =>
      hdigits u (List.mem_of_mem_drop hu)⟩, rfl, ?_⟩
    have htext := natText_of_head (fun u hu => hdigits u (List.mem_of_mem_take hu)) htake
      (by rwa [List.head?_take, if_neg (by omega)])
    rw [PlainDecimal.text, PlainDecimal.wholeText, if_neg hdrop, htext]
    rfl
  · refine ⟨⟨false, 0, List.replicate n.natAbs zeroUnit ++ digits, fun u hu => ?_⟩, rfl, ?_⟩
    · rcases List.mem_append.mp hu with hu | hu
      · exact isDigit_of_mem_zeros hu
      · exact hdigits u hu
    · rw [PlainDecimal.text, PlainDecimal.wholeText,
        if_neg (List.append_ne_nil_of_right_ne_nil _ hne)]
      rfl
  all_goals omega

/-- A number that is neither too small nor too large is written plainly. -/
theorem exists_plain {s : ℕ} {e : ℤ} (hs : s ≠ 0) (hlow : -6 < e + (natText s).length)
    (hhigh : e + (natText s).length ≤ 21) :
    ∃ p : PlainDecimal, p.negative = false ∧ p.text = scientific s e ∧ p.size = s * 10 ^ e := by
  obtain ⟨p, hp, htext⟩ := exists_layout_plain (stripZeros_natText_ne_nil hs)
    (isDigit_of_mem_stripZeros fun _ => isDigit_of_mem_natText) (head_stripZeros hs) hlow hhigh
  refine ⟨p, hp, htext, ?_⟩
  rw [← PlainDecimal.readDecimal_text hp, htext, ← scientific, readDecimal_scientific hs]

end Text
